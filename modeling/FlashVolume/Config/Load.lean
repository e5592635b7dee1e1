import FlashVolume.Config.KeyPath
import FlashVolume.Config.SettingsFile
/-!
# Loading a configuration

Section 10.5 of the specification: `load`, which takes the settings of `fsu.toml` and the `FSU_*`
variables.

The settings come from a file and from the environment, which wins. A variable counts when its
name, in lower case, starts with `fsu_`; the rest of the name is the key. Variables are taken in
the order of their names, and of two for one key the later wins. A key may be a path into a value.
Keys that name no setting are ignored. The values are read first, each as its key needs, and then
the configuration is validated.
-/

namespace FlashVolume

namespace Environment

/-- The lower case of a character of a variable's name. Besides the letters of ASCII, the Kelvin
sign has an ASCII letter for its lower case. -/
def lowerChar (c : Char) : Char :=
  if c.toNat = 0x212A then 'k' else c.toLower

/-- The key that a variable sets. -/
def key? (name : String) : Option String :=
  let cs := name.toList.map lowerChar
  if ['f', 's', 'u', '_'].isPrefixOf cs then some (String.ofList (cs.drop 4)) else none

/-- The settings of an environment, the one that wins last. -/
def settings (env : List (String × String)) : List (String × Setting) :=
  (env.mergeSort fun a b => (compare a.1 b.1).isLE).filterMap fun (name, value) =>
    (key? name).map (·, .ofVariable value)

end Environment

namespace Config

/-- The value of a key, read as its setting needs it, or the fallback if the key is not set. -/
def read {α : Type} (settings : List (String × Setting)) (key : String)
    (as : Setting → Except ConfigError α) (fallback : α) : Except ConfigError α :=
  match settings.lookup key with
  | some value => as value
  | none => .ok fallback

/-- A text setting. -/
def readText (settings : List (String × Setting)) (key fallback : String) :
    Except ConfigError String :=
  read settings key (Setting.toText key) fallback

/-- A size setting. -/
def readSize (settings : List (String × Setting)) (key : String) (fallback : UInt64) :
    Except ConfigError UInt64 :=
  read settings key (Setting.toSize key) fallback

/-- A flag setting. -/
def readFlag (settings : List (String × Setting)) (key : String) (fallback : Bool) :
    Except ConfigError Bool :=
  read settings key (Setting.toFlag key) fallback

/-- The configuration that the settings describe. -/
def ofSettings (settings : List (String × Setting)) : Except ConfigError Config := do
  let fallback : Config := {}
  return {
    mountPoint := ← readText settings "mount_point" fallback.mountPoint
    hostRoot := ← readText settings "host_root" fallback.hostRoot
    maxPathSize := ← readSize settings "max_path_size" fallback.maxPathSize
    maxFileNameSize := ← readSize settings "max_file_name_size" fallback.maxFileNameSize
    hashChunkSize := ← readSize settings "hash_chunk_size" fallback.hashChunkSize
    checksumChunkSize := ← readSize settings "checksum_chunk_size" fallback.checksumChunkSize
    checksSize := ← readFlag settings "rewrite_size_check" fallback.checksSize }

/-- The settings of a settings file, if there is one. -/
def fileSettings : Option SettingsFile → Except ConfigError (List (String × Setting))
  | none => .ok []
  | some file =>
    match file.settings? with
    | some settings => .ok settings
    | none => .error .malformedFile

/-- The configuration of a settings file, if there is one, and an environment. -/
def load (file : Option SettingsFile) (env : List (String × String)) :
    Except ConfigError Config := do
  let written := Setting.lastEntries (← fileSettings file) ++ Environment.settings env
  match written.foldlM (fun settings (key, value) => KeyPath.assign? settings key value) [] with
  | none => .error .noSuchPosition
  | some settings =>
    let config ← ofSettings settings
    config.validate
    return config

/-- **What has been loaded is valid.** -/
theorem validate_of_load {file : Option SettingsFile} {env : List (String × String)}
    {config : Config} (h : load file env = .ok config) : config.validate = .ok () := by
  simp only [load, bind, Except.bind] at h
  split at h
  case h_1 => cases h
  split at h
  case h_1 => cases h
  split at h
  case h_1 => cases h
  split at h
  case h_1 => cases h
  case h_2 hvalid =>
    cases h
    exact hvalid

end Config
end FlashVolume

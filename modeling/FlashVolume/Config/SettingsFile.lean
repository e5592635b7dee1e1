import FlashVolume.Config.Ini
import FlashVolume.Config.Json5
import FlashVolume.Config.Ron.Value
import FlashVolume.Config.Toml.Section
import FlashVolume.Config.Yaml.Node
/-!
# Settings files

Section 10.5 of the specification: the file that `load` looks for.

A settings file is named `fsu`, and its extension tells its format. A file `fsu` without an
extension has none, and is there in place of all others.
-/

namespace FlashVolume

/-- The formats of settings files. -/
inductive SettingsFormat where
  | toml
  | json
  | yaml
  | ini
  | ron
  | json5
deriving DecidableEq, Repr

/-- A settings file that can be read. -/
structure SettingsFile where
  format : SettingsFormat
  text : String
deriving DecidableEq, Repr

namespace SettingsFile

/-- The name of a settings file without an extension. -/
def bareName : String := "fsu"

/-- The names of settings files, in the order in which they are looked for. -/
def names : List (String × SettingsFormat) :=
  [("fsu.toml", .toml), ("fsu.json", .json), ("fsu.yaml", .yaml), ("fsu.yml", .yaml),
   ("fsu.ini", .ini), ("fsu.ron", .ron), ("fsu.json5", .json5)]

/-- The settings of a file, in order; `none` if it is malformed. -/
def settings? (file : SettingsFile) : Option (List (String × Setting)) :=
  match file.format with
  | .toml => Toml.settings? file.text
  | .json => Json.settings? file.text
  | .yaml => Yaml.settings? file.text
  | .ini => Ini.settings? file.text
  | .ron => Ron.settings? file.text
  | .json5 => Json5.settings? file.text

end SettingsFile
end FlashVolume

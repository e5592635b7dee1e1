import FlashVolume.Error.Operation
import FlashVolume.Text.Utf8
import FlashVolume.Word
/-!
# Configuration

Section 10.5 of the specification: the options with their defaults, `validate`, and the lengths that
are derived from the sizes.

The settings of a volume and of the operations on it, and the bounds that follow from them. Both
path sizes are sizes of buffers that hold a terminator, so a name has at most `maxFileNameSize - 1`
bytes, and a directory, a separator and a name have at most `maxPathSize + maxFileNameSize - 2`. The
sum is taken in 64 bits, and one that does not fit stops the operation that needs it; the
subtraction stops at zero.

`validate` names the first defect of a configuration, in the order of `Defect`.
-/

namespace FlashVolume

/-- The settings. -/
structure Config where
  /-- The root of the volume, for example `/lfs`. -/
  mountPoint : String := "/lfs"
  /-- The host directory behind the mount point. -/
  hostRoot : String := "./lfs_root"
  /-- The size of a directory path, terminator included. -/
  maxPathSize : UInt64 := 128
  /-- The size of a file name, terminator included. -/
  maxFileNameSize : UInt64 := 64
  /-- How many bytes are hashed at a time. -/
  hashChunkSize : UInt64 := 1024
  /-- How many bytes are added to a checksum at a time. -/
  checksumChunkSize : UInt64 := 1024
  /-- Whether the size of a file is looked at after its contents have been replaced. -/
  checksSize : Bool := true
deriving DecidableEq, Repr, Inhabited

namespace Config

/-- The sum of the two sizes of a path. -/
def sizeSum (config : Config) : Nat :=
  config.maxPathSize.toNat + config.maxFileNameSize.toNat

/-- The length of the longest absolute path: directory, separator and name; an overflow if the sum
does not fit into 64 bits. -/
def maxAbsPathLength (config : Config) : Except Error Nat :=
  if config.sizeSum ≤ Word.maxUnsigned64 then .ok (config.sizeSum - 2) else .error .overflow

/-- **The longest path is the sum of both sizes, less two, exactly if that sum fits a word.** -/
theorem maxAbsPathLength_eq_ok_iff {config : Config} {bound : Nat} :
    config.maxAbsPathLength = .ok bound ↔
      config.sizeSum ≤ Word.maxUnsigned64 ∧ bound = config.sizeSum - 2 := by
  rw [maxAbsPathLength]
  split
  · rename_i hsum
    exact ⟨fun h => ⟨hsum, (Except.ok.inj h).symm⟩, fun h => congrArg _ h.2.symm⟩
  · rename_i hsum
    exact ⟨fun h => (nomatch h), fun h => absurd h.1 hsum⟩

/-- What keeps the longest path from being computed is an overflow. -/
theorem maxAbsPathLength_eq_error_iff {config : Config} {e : Error} :
    config.maxAbsPathLength = .error e ↔
      Word.maxUnsigned64 < config.sizeSum ∧ e = .overflow := by
  rw [maxAbsPathLength]
  split
  · rename_i hsum
    exact ⟨fun h => (nomatch h), fun h => absurd hsum (Nat.not_le.2 h.1)⟩
  · rename_i hsum
    exact ⟨fun h => ⟨Nat.lt_of_not_le hsum, (Except.error.inj h).symm⟩,
      fun h => congrArg _ h.2.symm⟩

/-- The length of the longest file name. -/
def maxFileNameLength (config : Config) : Nat :=
  config.maxFileNameSize.toNat - 1

/-- What can be wrong with a configuration. -/
inductive Defect where
  | mountPointNotAbsolute
  | mountPointNotOneSegment
  | pathSizeTooSmall
  | fileNameSizeTooSmall
  | chunkSizeZero
deriving DecidableEq, Repr

/-- The text of a defect. -/
def Defect.message : Defect → String
  | mountPointNotAbsolute => "mount_point must be an absolute path below /"
  | mountPointNotOneSegment => "mount_point must be a single path segment without a trailing slash"
  | pathSizeTooSmall => "max_path_size must leave room beyond the mount point"
  | fileNameSizeTooSmall => "max_file_name_size must be at least 2"
  | chunkSizeZero => "chunk sizes must be greater than 0"

/-- The first defect of a configuration. -/
def defect? (config : Config) : Option Defect :=
  if config.mountPoint.toList.head? ≠ some '/' ∨ Text.byteLength config.mountPoint < 2 then
    some .mountPointNotAbsolute
  else if '/' ∈ config.mountPoint.toList.tail then some .mountPointNotOneSegment
  else if config.maxPathSize.toNat ≤ Text.byteLength config.mountPoint then some .pathSizeTooSmall
  else if config.maxFileNameSize < 2 then some .fileNameSizeTooSmall
  else if config.hashChunkSize = 0 ∨ config.checksumChunkSize = 0 then some .chunkSizeZero
  else none

end Config

/-- Why a configuration is refused. -/
inductive ConfigError where
  /-- The values make no sense together. -/
  | invalid (defect : Config.Defect)
  /-- A value has the wrong type for its key. -/
  | wrongType (key expected : String)
  /-- The settings file cannot be read. -/
  | malformedFile
  /-- A key leads to a position that no list has. -/
  | noSuchPosition
deriving DecidableEq, Repr

/-- The exit code of a program whose configuration is refused. -/
def ConfigError.exitCode : ConfigError → Nat
  | invalid _ => 1
  | wrongType _ _ => 1
  | malformedFile => 1
  | noSuchPosition => 101

/-- Accepts a configuration that has no defect. -/
def Config.validate (config : Config) : Except ConfigError Unit :=
  match config.defect? with
  | some defect => .error (.invalid defect)
  | none => .ok ()

/-- What is accepted has no defect. -/
theorem Config.defect?_of_validate {config : Config} (h : config.validate = .ok ()) :
    config.defect? = none := by
  rw [validate] at h
  split at h
  · cases h
  · assumption

end FlashVolume

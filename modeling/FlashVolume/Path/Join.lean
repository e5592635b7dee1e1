import FlashVolume.Config.Basic
import FlashVolume.Error.Operation
/-!
# Directory and name

Section 4.2 of the specification: `join`, and `resolve`, which section 10.6 asks for.

`join` writes a directory, a separator and a name, cut to a capacity without splitting a
character, and says how long the whole path is. `resolve` refuses what would have to be cut, and
looks at the length of the name first.
-/

namespace FlashVolume
namespace Path

/-- A joined path. -/
structure Joined where
  /-- As much of the path as fits. -/
  path : String
  /-- The length of the whole path. -/
  required : Nat
deriving DecidableEq, Repr

/-- Whether the path has been cut. -/
def Joined.isTruncated (joined : Joined) : Bool :=
  Text.byteLength joined.path < joined.required

/-- The directory, a separator and the name, cut to `capacity` bytes. -/
def join (dir name : String) (capacity : Nat) : Except Error Joined :=
  if dir.isEmpty ∨ name.isEmpty then .error (.invalidInput "missing directory or name")
  else .ok ⟨Text.takeBytes capacity (dir ++ "/" ++ name),
    Text.byteLength dir + 1 + Text.byteLength name⟩

/-- The path of a name in a directory, within the configured bounds. -/
def resolve (dir name : String) (config : Config) : Except Error String :=
  if Text.byteLength name > config.maxFileNameLength then
    .error (.tooLong (Text.byteLength name) config.maxFileNameLength)
  else do
    let bound ← config.maxAbsPathLength
    let joined ← join dir name bound
    if joined.isTruncated then .error (.tooLong joined.required bound)
    else .ok joined.path

end Path
end FlashVolume

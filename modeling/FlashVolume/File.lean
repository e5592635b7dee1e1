import FlashVolume.Path.Join
import FlashVolume.Storage.Program
/-!
# Files

Section 4.4 of the specification, and the forms with a directory and a name of section 10.6
(`read_in`, `write_in` and so on).

Operations on a single file. `withFile` opens a file, works on it and closes it on every way
out; a failed close counts only if the work succeeded.

| operation | calls |
| --- | --- |
| `read` | `stat`, then `open`, `seek` unless the offset is 0, `read`, `close` |
| `write` | `open`, `truncate` to the new length, `write`, `close`, then `stat` for the size check |
| `append` | `open`, `write`, `close` |
| `delete` | `unlink` |
| `size` | `stat` |

Each has a form that takes a directory and a name, and makes no call if they do not resolve.
-/

namespace FlashVolume
namespace File

/-- What a file operation answers, from how the work and the close went. -/
def afterClose {α : Type} (path : String) :
    Except Error α → Except StorageError Unit → Except Error α
  | .ok _, .error e => .error (.ioError s!"close {path}: {e.message}")
  | result, _ => result

/-- Opens a file, works on it, and closes it. -/
def withFile {α : Type} (path : String) (mode : OpenMode) (work : FileHandle → Operation α) :
    Operation α := do
  let file ← Operation.request (.open path mode)
  let result ← Operation.observe (work file)
  let closed ← Operation.attempt (.close file)
  Operation.ofExcept (afterClose path result closed)

/-- Refuses the empty path. -/
def requirePath (path : String) : Operation Unit :=
  if path.isEmpty then throw (.invalidInput "empty path") else pure ()

/-- What reading into a buffer leaves: the number of bytes read, and the buffer with those bytes
at its front. -/
structure Filled where
  count : Nat
  buffer : Bytes
deriving DecidableEq, Repr

/-- Puts the bytes read at the front of a buffer. -/
def fill (buffer bytes : Bytes) : Filled :=
  ⟨bytes.length, bytes.take buffer.length ++ buffer.drop bytes.length⟩

/-- Reads from an offset into a buffer, as many bytes as it holds or as the file has. -/
def read (path : String) (offset : Nat) (buffer : Bytes) : Operation Filled := do
  requirePath path
  let entry ← Operation.requestOr (fun _ => .notFound path) (.stat path)
  if entry.kind = .directory then throw (.isADirectory path)
  withFile path .readOnly fun file => do
    if offset ≠ 0 then Operation.request (.seek file offset)
    let bytes ← Operation.request (.read file buffer.length)
    return fill buffer bytes

/-- Writes the data, all of it. -/
def writeAll (file : FileHandle) (data : Bytes) : Operation Nat := do
  let written ← Operation.request (.write file data)
  if written ≠ data.length then throw (.diskFull written data.length)
  return written

/-- The size of the entry at a path. -/
def size (path : String) : Operation Nat := do
  requirePath path
  let entry ← Operation.requestOr (fun _ => .notFound path) (.stat path)
  return entry.size

/-- Looks whether a file has the size it should have after a write. -/
def verifySize (path : String) (desired : Nat) : Operation Unit := do
  match ← Operation.observe (size path) with
  | .ok actual =>
    if actual ≠ desired then
      throw (.ioError s!"{path} is {actual} bytes after writing {desired}")
  | .error _ => throw (.ioError s!"{path} vanished after write")

/-- Replaces the contents of a file, which is created if it is missing. The file ends up exactly
as long as the data. -/
def write (path : String) (data : Bytes) (config : Config) : Operation Nat := do
  requirePath path
  let written ← withFile path .replacing fun file => do
    Operation.request (.truncate file data.length)
    writeAll file data
  if config.checksSize then verifySize path data.length
  return written

/-- Writes at the end of a file, which is created if it is missing. -/
def append (path : String) (data : Bytes) : Operation Nat := do
  requirePath path
  withFile path .appending fun file => writeAll file data

/-- Removes an entry. The error of the storage call is passed on as it is. -/
def delete (path : String) : Operation Unit := do
  requirePath path
  Operation.requestOr .storage (.unlink path)

/-- Runs an operation on the path of a name in a directory. -/
def inDirectory {α : Type} (dir name : String) (config : Config) (work : String → Operation α) :
    Operation α := do
  work (← Operation.ofExcept (Path.resolve dir name config))

/-- Reads the start of a file. -/
def readIn (dir name : String) (buffer : Bytes) (config : Config) : Operation Filled :=
  inDirectory dir name config fun path => read path 0 buffer

/-- Replaces the contents of a file. -/
def writeIn (dir name : String) (data : Bytes) (config : Config) : Operation Nat :=
  inDirectory dir name config fun path => write path data config

/-- Writes at the end of a file. -/
def appendIn (dir name : String) (data : Bytes) (config : Config) : Operation Nat :=
  inDirectory dir name config fun path => append path data

/-- Removes an entry. -/
def deleteIn (dir name : String) (config : Config) : Operation Unit :=
  inDirectory dir name config delete

/-- The size of an entry. -/
def sizeIn (dir name : String) (config : Config) : Operation Nat :=
  inDirectory dir name config size

end File
end FlashVolume

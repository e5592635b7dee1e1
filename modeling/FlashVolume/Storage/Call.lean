import FlashVolume.Error.Storage
import FlashVolume.Storage.Entry
import FlashVolume.Text.Utf8
/-!
# Storage calls

Sections 6 and 10.2 of the specification: the calls that are consumed.

The boundary of a volume. A call has a type, that of a successful answer:

| calls | answer |
| --- | --- |
| `mount`, `seek`, `truncate`, `close`, `closedir`, `mkdir`, `unlink` | nothing |
| `statvfs` | the numbers of the volume |
| `open`, `opendir` | a handle |
| `read`, `write` | the bytes read, the number of bytes taken |
| `stat`, `readdir` | an entry |

A file or a directory is opened by a call that answers a handle, and is used and closed by calls
that name the handle.
-/

namespace FlashVolume

/-- The handle of an open file. -/
structure FileHandle where
  index : Nat
deriving DecidableEq, Repr, Inhabited

/-- The handle of an open directory. -/
structure DirHandle where
  index : Nat
deriving DecidableEq, Repr, Inhabited

/-- A call on a volume, with the type of a successful answer. -/
inductive Call : Type → Type where
  /-- Attach the volume to its mount point. -/
  | mount : Call Unit
  | statvfs (path : String) : Call VolumeStats
  | open (path : String) (mode : OpenMode) : Call FileHandle
  /-- Read up to `length` bytes. -/
  | read (file : FileHandle) (length : Nat) : Call Bytes
  /-- Write the data, and answer how many bytes were taken. -/
  | write (file : FileHandle) (data : Bytes) : Call Nat
  /-- Go to an offset from the start of the file. -/
  | seek (file : FileHandle) (offset : Nat) : Call Unit
  /-- Make the file `length` bytes long. -/
  | truncate (file : FileHandle) (length : Nat) : Call Unit
  | close (file : FileHandle) : Call Unit
  | stat (path : String) : Call Entry
  | opendir (path : String) : Call DirHandle
  /-- The next entry of an open directory, or the end mark. -/
  | readdir (dir : DirHandle) : Call Entry
  | closedir (dir : DirHandle) : Call Unit
  | mkdir (path : String) : Call Unit
  | unlink (path : String) : Call Unit

/-- Which call it is, whatever its arguments. -/
inductive CallName where
  | mount
  | statvfs
  | open
  | read
  | write
  | seek
  | truncate
  | close
  | stat
  | opendir
  | readdir
  | closedir
  | mkdir
  | unlink
deriving DecidableEq, Repr

/-- The name of a call. -/
def Call.name {α : Type} : Call α → CallName
  | .mount => .mount
  | .statvfs _ => .statvfs
  | .open _ _ => .open
  | .read _ _ => .read
  | .write _ _ => .write
  | .seek _ _ => .seek
  | .truncate _ _ => .truncate
  | .close _ => .close
  | .stat _ => .stat
  | .opendir _ => .opendir
  | .readdir _ => .readdir
  | .closedir _ => .closedir
  | .mkdir _ => .mkdir
  | .unlink _ => .unlink

end FlashVolume

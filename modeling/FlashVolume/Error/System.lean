/-!
# Failures of the host system

What `Io` of section 10.2 of the specification carries.

A failure of the host is an error number, a bare kind, or a kind with a text of its own. The
error numbers that a volume meets, with the kind each belongs to:

| number | text | kind |
| ---: | --- | --- |
| 1, 13 | Operation not permitted, Permission denied | `permissionDenied` |
| 2 | No such file or directory | `notFound` |
| 5, 9, 30 | Input/output error, Bad file descriptor, Read-only file system | `uncategorized` |
| 12 | Cannot allocate memory | `outOfMemory` |
| 17 | File exists | `alreadyExists` |
| 20, 21 | Not a directory, Is a directory | `notADirectory`, `isADirectory` |
| 22 | Invalid argument | `invalidInput` |
| 28 | No space left on device | `storageFull` |
| 36 | File name too long | `invalidFilename` |
| 39 | Directory not empty | `directoryNotEmpty` |
-/

namespace FlashVolume

namespace Errno

/-- `EPERM` -/
def notPermitted : Nat := 1
/-- `ENOENT` -/
def noEntry : Nat := 2
/-- `EIO` -/
def inputOutput : Nat := 5
/-- `EBADF` -/
def badDescriptor : Nat := 9
/-- `ENOMEM` -/
def noMemory : Nat := 12
/-- `EACCES` -/
def accessDenied : Nat := 13
/-- `EEXIST` -/
def alreadyExists : Nat := 17
/-- `ENOTDIR` -/
def notDirectory : Nat := 20
/-- `EISDIR` -/
def isDirectory : Nat := 21
/-- `EINVAL` -/
def invalidArgument : Nat := 22
/-- `ENOSPC` -/
def noSpace : Nat := 28
/-- `EROFS` -/
def readOnly : Nat := 30
/-- `ENAMETOOLONG` -/
def nameTooLong : Nat := 36
/-- `ENOSYS` -/
def notImplemented : Nat := 38
/-- `ENOTEMPTY` -/
def notEmpty : Nat := 39

end Errno

/-- What a system failure is about. -/
inductive ErrorKind where
  | notFound
  | alreadyExists
  | notADirectory
  | isADirectory
  | storageFull
  | permissionDenied
  | directoryNotEmpty
  | invalidInput
  | invalidData
  | invalidFilename
  | unexpectedEof
  | outOfMemory
  | other
  | uncategorized
deriving DecidableEq, Repr, Inhabited

namespace ErrorKind

/-- The text of a failure of which only the kind is known. -/
def message : ErrorKind → String
  | notFound => "entity not found"
  | alreadyExists => "entity already exists"
  | notADirectory => "not a directory"
  | isADirectory => "is a directory"
  | storageFull => "no storage space"
  | permissionDenied => "permission denied"
  | directoryNotEmpty => "directory not empty"
  | invalidInput => "invalid input parameter"
  | invalidData => "invalid data"
  | invalidFilename => "invalid filename"
  | unexpectedEof => "unexpected end of file"
  | outOfMemory => "out of memory"
  | other => "other error"
  | uncategorized => "uncategorized error"

/-- The kind that an error number belongs to. -/
def ofErrno (code : Nat) : ErrorKind :=
  match code with
  | 1 | 13 => permissionDenied
  | 2 => notFound
  | 12 => outOfMemory
  | 17 => alreadyExists
  | 20 => notADirectory
  | 21 => isADirectory
  | 22 => invalidInput
  | 28 => storageFull
  | 36 => invalidFilename
  | 39 => directoryNotEmpty
  | _ => uncategorized

end ErrorKind

/-- The text of an error number. -/
def Errno.message (code : Nat) : String :=
  match code with
  | 1 => "Operation not permitted"
  | 2 => "No such file or directory"
  | 5 => "Input/output error"
  | 9 => "Bad file descriptor"
  | 12 => "Cannot allocate memory"
  | 13 => "Permission denied"
  | 17 => "File exists"
  | 20 => "Not a directory"
  | 21 => "Is a directory"
  | 22 => "Invalid argument"
  | 28 => "No space left on device"
  | 30 => "Read-only file system"
  | 36 => "File name too long"
  | 38 => "Function not implemented"
  | 39 => "Directory not empty"
  | n => s!"Unknown error {n}"

/-- A failure of the host system. -/
inductive SystemError where
  /-- The system gave an error number. -/
  | os (code : Nat)
  /-- Only the kind is known. -/
  | bare (kind : ErrorKind)
  /-- The kind is known, and the failure has a text of its own. -/
  | text (kind : ErrorKind) (message : String)
deriving DecidableEq, Repr, Inhabited

namespace SystemError

/-- The kind of a failure. -/
def kind : SystemError → ErrorKind
  | os code => .ofErrno code
  | bare kind => kind
  | text kind _ => kind

/-- The text of a failure. An error number is shown behind its text. -/
def message : SystemError → String
  | os code => s!"{Errno.message code} (os error {code})"
  | bare kind => kind.message
  | text _ message => message

/-- The error number of a failure, where it has one. -/
def errno? : SystemError → Option Nat
  | os code => some code
  | _ => none

end SystemError
end FlashVolume

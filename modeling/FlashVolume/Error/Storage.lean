import FlashVolume.Error.System
/-!
# Errors of a volume

Section 10.2 of the specification: `StorageError`.

What a storage call answers when it fails. A failure of the host becomes one of them by its kind:
`notFound`, `alreadyExists`, `notADirectory` and `isADirectory` keep the text of the failure in
place of a path, `storageFull` becomes `noSpace`, and any other failure is kept whole.
-/

namespace FlashVolume

/-- Why a storage call failed. -/
inductive StorageError where
  | notFound (path : String)
  | alreadyExists (path : String)
  | notADirectory (path : String)
  | isADirectory (path : String)
  | noSpace
  | notMounted
  | invalidPath (path : String)
  | io (error : SystemError)
deriving DecidableEq, Repr, Inhabited

namespace StorageError

/-- The text of the error. -/
def message : StorageError → String
  | notFound path => s!"No such entry: {path}"
  | alreadyExists path => s!"Entry already exists: {path}"
  | notADirectory path => s!"Not a directory: {path}"
  | isADirectory path => s!"Is a directory: {path}"
  | noSpace => "No space left on volume"
  | notMounted => "Volume not mounted"
  | invalidPath path => s!"Invalid path: {path}"
  | io error => s!"IO error: {error.message}"

/-- The text of the failure behind the error, where there is one. -/
def source? : StorageError → Option String
  | io error => some error.message
  | _ => none

/-- A failure of the host, as an error of the volume. -/
def ofSystem (error : SystemError) : StorageError :=
  match error.kind with
  | .notFound => notFound error.message
  | .alreadyExists => alreadyExists error.message
  | .notADirectory => notADirectory error.message
  | .isADirectory => isADirectory error.message
  | .storageFull => noSpace
  | _ => io error

/-- The error number that stands for the error. -/
def errno : StorageError → Nat
  | notFound _ => Errno.noEntry
  | alreadyExists _ => Errno.alreadyExists
  | notADirectory _ => Errno.notDirectory
  | isADirectory _ => Errno.isDirectory
  | noSpace => Errno.noSpace
  | notMounted => Errno.notPermitted
  | invalidPath _ => Errno.invalidArgument
  | io error => error.errno?.getD Errno.inputOutput

end StorageError
end FlashVolume

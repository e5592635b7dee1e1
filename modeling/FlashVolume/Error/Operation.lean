import FlashVolume.Error.Storage
/-!
# Errors of an operation

Sections 7 and 10.3 of the specification: the taxonomy of errors, and `error_to_errno`, which is
`Error.status`.

What a file, directory or digest operation answers when it fails. `Error.ofStorage` turns the
error of a storage call into one: `notFound`, `notADirectory` and `isADirectory` become the
errors of that name, and every other one is passed on behind `storage`.

A caller that reports results as numbers reads `Error.status`, a negative error number.

`overflow` is no error that is reported: the operation stops where a sum does not fit into its
word, and whoever called it stops with it. It is passed on through every operation, also through one
that goes on after an error, up to the session that ends with it.
-/

namespace FlashVolume

/-- Why an operation failed. -/
inductive Error where
  /-- A required argument is empty, or an argument makes no sense. -/
  | invalidInput (text : String)
  /-- A path or a name exceeds its bound. -/
  | tooLong (length bound : Nat)
  /-- A `..` would climb above the first segment of the path. -/
  | malformedTraversal (path : String)
  | notFound (path : String)
  | notADirectory (path : String)
  | isADirectory (path : String)
  /-- A query for a single entry matches several. -/
  | ambiguousMatch (name : String) (count : Nat)
  /-- A write took fewer bytes than it was given. -/
  | diskFull (written requested : Nat)
  | ioError (text : String)
  | outOfMemory (text : String)
  /-- The feature is not available. -/
  | unsupported (text : String)
  /-- The error of a storage call, passed on. -/
  | storage (error : StorageError)
  /-- A sum does not fit into its word, and the operation stops there. -/
  | overflow
deriving DecidableEq, Repr, Inhabited

namespace Error

/-- The text of the error. -/
def message : Error → String
  | invalidInput text => s!"Invalid input: {text}"
  | tooLong length bound => s!"Path too long: {length} characters (max {bound})"
  | malformedTraversal path => s!"Path escapes the root: {path}"
  | notFound path => s!"Not found: {path}"
  | notADirectory path => s!"Not a directory: {path}"
  | isADirectory path => s!"Is a directory: {path}"
  | ambiguousMatch name count => s!"{count} entries match '{name}', expected one"
  | diskFull written requested => s!"Disk full: wrote {written} of {requested} bytes"
  | ioError text => s!"IO error: {text}"
  | outOfMemory text => s!"Out of memory: {text}"
  | unsupported text => s!"Unsupported: {text}"
  | storage error => s!"Storage error: {error.message}"
  | overflow => "attempt to add with overflow"

/-- The text of the error behind this one, where there is one. -/
def source? : Error → Option String
  | storage error => some error.message
  | _ => none

/-- The error of a storage call, as the error of the operation that made it. -/
def ofStorage : StorageError → Error
  | .notFound path => notFound path
  | .notADirectory path => notADirectory path
  | .isADirectory path => isADirectory path
  | error => storage error

/-- The error number that stands for the error. An overflow has none, and is 0 here. -/
def errno : Error → Nat
  | invalidInput _ => Errno.notPermitted
  | tooLong _ _ => Errno.nameTooLong
  | malformedTraversal _ => Errno.invalidArgument
  | notFound _ => Errno.noEntry
  | notADirectory _ => Errno.notDirectory
  | isADirectory _ => Errno.isDirectory
  | ambiguousMatch _ _ => Errno.invalidArgument
  | diskFull _ _ => Errno.noSpace
  | ioError _ => Errno.inputOutput
  | outOfMemory _ => Errno.noMemory
  | unsupported _ => Errno.notImplemented
  | storage error => error.errno
  | overflow => 0

/-- The result code of a failed operation: its error number, negative. -/
def status (error : Error) : Int :=
  -(error.errno : Int)

end Error
end FlashVolume

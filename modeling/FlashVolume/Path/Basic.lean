/-!
# Parts of a path

The parts that the backend in memory (section 10.2 of the specification) takes a path for.

A path is a text whose segments are separated by `/`. `parent` is the text before the last
separator, and `fileName` the text after it.
-/

namespace FlashVolume
namespace Path

/-- The characters after the last separator. -/
def fileNameChars (cs : List Char) : List Char :=
  (cs.reverse.takeWhile (· ≠ '/')).reverse

/-- The text after the last separator, or the whole path if it has none. -/
def fileName (path : String) : String :=
  String.ofList (fileNameChars path.toList)

/-- The characters before the last separator; the separator itself if nothing stands before it,
and nothing at all if there is none. -/
def parentChars (cs : List Char) : List Char :=
  match cs.reverse.dropWhile (· ≠ '/') with
  | [] => []
  | [_] => ['/']
  | _ :: before => before.reverse

/-- The path of the directory that holds the entry: the text before the last separator, `/` for
an entry of the root, and the empty text for a path without a separator. -/
def parent (path : String) : String :=
  String.ofList (parentChars path.toList)

/-- What every path strictly below a directory starts with. -/
def below (dir : String) : String :=
  if dir.toList.getLast? = some '/' then dir else dir ++ "/"

end Path
end FlashVolume

/-!
# The stages of a path

Section 4.6 of the specification: the walk of `mkdir_recursive`.

The directories that lie on the way to a path are its beginnings that end before a separator. The
first character is not such a separator: `/a/b` has the stages `/a` and `/a/b`.
-/

namespace FlashVolume
namespace Path

/-- The stages of a path of which `before`, newest character first, has been read. -/
def stagesFrom : List Char → List Char → List (List Char)
  | before, [] => [before.reverse]
  | before, c :: cs =>
    if c = '/' ∧ before ≠ [] then before.reverse :: stagesFrom (c :: before) cs
    else stagesFrom (c :: before) cs

/-- The stages of a path, shortest first; the last is the path itself. -/
def stages (path : String) : List String :=
  (stagesFrom [] path.toList).map String.ofList

/-- The path without the separators at its end. -/
def trimSeparators (path : String) : String :=
  String.ofList (path.toList.reverse.dropWhile (· = '/')).reverse

end Path
end FlashVolume

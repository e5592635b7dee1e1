import FlashVolume.Text.Utf8
/-!
# Paths of the host

A path of the host is a text that is cut at separators. Its segments are kept as they are written,
so that a path has the length that it was written with; the segments that are not empty are its
*parts*. `.` and `..` are parts like any other until the host walks the path.

A path whose last segment is empty ends in a separator. It names what the path without it names,
and only a directory may stand there.
-/

namespace FlashVolume

/-- A path of the host, as the segments between its separators. -/
structure HostPath where
  segments : List String
deriving DecidableEq, Repr, Inhabited

namespace HostPath

/-- The maximal runs of characters without a separator, empty runs included. -/
def splitSeparators (text : String) : List String :=
  (text.toList.splitOn '/').map String.ofList

/-- The path that a text writes. -/
def ofText (text : String) : HostPath :=
  ⟨splitSeparators text⟩

/-- The text of a path. -/
def toText (path : HostPath) : String :=
  String.intercalate "/" path.segments

/-- Whether the path starts at the root of the host, not in the working directory. -/
def isAbsolute (path : HostPath) : Bool :=
  match path.segments with
  | "" :: _ :: _ => true
  | _ => false

/-- The segments that are not empty. -/
def parts (path : HostPath) : List String :=
  path.segments.filter (· ≠ "")

/-- Whether the path is the empty text. -/
def isEmpty (path : HostPath) : Bool :=
  !path.isAbsolute && path.parts.isEmpty

/-- Whether a separator ends the path. -/
def endsInSeparator (path : HostPath) : Bool :=
  path.segments.getLast? = some ""

/-- The path of a name below a path. -/
def push (path : HostPath) (name : String) : HostPath :=
  ⟨(if path.endsInSeparator then path.segments.dropLast else path.segments) ++ [name]⟩

/-- The path of names below a path. -/
def pushAll (path : HostPath) (names : List String) : HostPath :=
  names.foldl push path

/-- The path that consists of some parts. -/
def ofParts (absolute : Bool) (parts : List String) : HostPath :=
  ⟨(if absolute then [""] else []) ++ (if parts.isEmpty then [""] else parts)⟩

/-- A path has no more parts than it was made of. -/
theorem parts_ofParts_length_le (absolute : Bool) (parts : List String) :
    (ofParts absolute parts).parts.length ≤ parts.length := by
  have filtered : ((ofParts absolute parts).segments.filter (· ≠ "")) = parts.filter (· ≠ "") := by
    cases absolute <;> cases parts <;> simp [ofParts]
  rw [HostPath.parts, filtered]
  exact List.length_filter_le ..

/-- The parts without `.`, except for one at the start of a path that is not absolute. -/
def components (path : HostPath) : List String :=
  match path.isAbsolute, path.parts with
  | false, "." :: rest => "." :: rest.filter (· ≠ ".")
  | _, parts => parts.filter (· ≠ ".")

/-- A path has no more components than parts. -/
theorem components_length_le (path : HostPath) : path.components.length ≤ path.parts.length := by
  unfold components
  split
  · rename_i rest _ h
    rw [h]
    exact Nat.succ_le_succ (List.length_filter_le ..)
  · exact List.length_filter_le ..

/-- The path without its last component, if it has one. -/
def parent? (path : HostPath) : Option HostPath :=
  if path.components.isEmpty then none
  else some (ofParts path.isAbsolute path.components.dropLast)

/-- The parent of a path has fewer parts. -/
theorem parent?_length_lt {path parent : HostPath} (h : path.parent? = some parent) :
    parent.parts.length < path.parts.length := by
  unfold parent? at h
  split at h
  · cases h
  · rename_i hne
    cases h
    have hparts := parts_ofParts_length_le path.isAbsolute path.components.dropLast
    have hcomponents := path.components_length_le
    have hne : path.components ≠ [] := by simpa using hne
    have := List.length_pos_iff.2 hne
    rw [List.length_dropLast] at hparts
    omega

/-- Whether a part contains the character NUL, which no path of the host may. -/
def hasNul (path : HostPath) : Bool :=
  path.segments.any fun part => part.toList.contains (Char.ofNat 0)

end HostPath
end FlashVolume

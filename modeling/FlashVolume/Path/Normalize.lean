import FlashVolume.Config.Basic
import FlashVolume.Error.Operation
import FlashVolume.Text.Utf8
/-!
# Clean paths

Section 4.1 of the specification: `normalize`.

`normalize` reads a path once, left to right, and writes it without doubled separators and
without the segments `.` and `..`:

* a separator that follows a separator in the input is not written;
* when the output comes to end in `/../`, it is cut back to just after the separator before the
  segment that `..` removes. That separator may not be the first character: the first segment is
  the mount point, and a path that climbs out of it is refused;
* when the output comes to end in `/./`, that `.` is dropped.

A last segment `.` or `..` without a separator behind it stays as it is written.
-/

namespace FlashVolume
namespace Path

/-- A path that is being written: the output so far, newest character first, and whether the last
character read was a separator. -/
structure Cleaner where
  out : List Char := []
  afterSeparator : Bool := false
deriving DecidableEq, Repr

namespace Cleaner

/-- Cuts the segment before a trailing `/../`; `none` if only the mount point, or nothing, stands
before it. -/
def climb : List Char → Option (List Char)
  | '/' :: '.' :: '.' :: '/' :: before =>
    match before.dropWhile (· ≠ '/') with
    | '/' :: c :: rest => some ('/' :: c :: rest)
    | _ => none
  | out => some out

/-- Drops the `.` of a trailing `/./`. -/
def dropDot : List Char → List Char
  | '/' :: '.' :: '/' :: before => '/' :: before
  | out => out

/-- Reads one character; `none` if the path climbs out of its first segment. -/
def push (s : Cleaner) (c : Char) : Option Cleaner :=
  if c = '/' ∧ s.afterSeparator then some s
  else (climb (c :: s.out)).map fun out => ⟨dropDot out, c = '/'⟩

end Cleaner

/-- The clean form of the characters of a path; `none` if it climbs out of its first segment. -/
def normalizeChars (cs : List Char) : Option (List Char) :=
  (cs.foldlM Cleaner.push {}).map fun s => s.out.reverse

/-- The clean form of a non-empty path of at most `bound` bytes. -/
def normalize (path : String) (bound : Nat) : Except Error String :=
  if path.isEmpty then .error (.invalidInput "empty path")
  else if Text.byteLength path > bound then .error (.tooLong (Text.byteLength path) bound)
  else
    match normalizeChars path.toList with
    | some cs => .ok (String.ofList cs)
    | none => .error (.malformedTraversal path)

/-- The clean form of a path within the configured bound. -/
def normalizeWithin (path : String) (config : Config) : Except Error String := do
  normalize path (← config.maxAbsPathLength)

/-- A path that has a clean form has one within the bound that was computed. -/
theorem normalizeWithin_eq_ok_iff {path clean : String} {config : Config} :
    normalizeWithin path config = .ok clean ↔
      ∃ bound, config.maxAbsPathLength = .ok bound ∧ normalize path bound = .ok clean := by
  rw [normalizeWithin]
  cases config.maxAbsPathLength with
  | error e => exact ⟨fun h => (nomatch h), fun ⟨_, h, _⟩ => (nomatch h)⟩
  | ok bound =>
    refine ⟨fun h => ⟨bound, rfl, h⟩, fun ⟨bound', hbound, h⟩ => ?_⟩
    cases hbound
    exact h

end Path
end FlashVolume

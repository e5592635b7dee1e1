import FlashVolume.Path.Normalize
import Mathlib.Tactic.Common
/-!
# Clean paths, segment by segment

Section 4.1 of the specification: `normalize`.

The pass over the characters of a path does what a machine over its segments does. A path is split
at its separators; the segments that have a separator behind them go onto a stack, one by one:

| segment | what it does |
| --- | --- |
| empty, or `.` | it is dropped |
| `..` | it takes the top of the stack away, if that is not the last segment there |
| any other | it is put onto the stack |

The first segment of a path that does not start with a separator is put onto the stack whatever it
is. What stands behind the last separator is kept as it is written.

`Stacked` is the invariant that carries the proof: no segment on the stack is empty, and none but
the first of a path without a separator in front can be `.`. So a cut of the output never leaves
`//` or `/./` behind, and what has been written is always the stack (`read_segments`).
-/

namespace FlashVolume
namespace Path

/-- What a segment does to the stack; `none` if it climbs out of the first segment. -/
def stackSegment (stack : List (List Char)) (segment : List Char) : Option (List (List Char)) :=
  if segment = [] ∨ segment = ['.'] then some stack
  else if segment = ['.', '.'] then
    if 2 ≤ stack.length then some stack.tail else none
  else some (segment :: stack)

/-- The stack after the segments that have a separator behind them. -/
def stackSegments (rooted : Bool) : List (List Char) → Option (List (List Char))
  | [] => some []
  | first :: rest =>
    if rooted then (first :: rest).foldlM stackSegment []
    else rest.foldlM stackSegment [first]

/-- The separator in front of a path, if it has one. -/
def rootMark (rooted : Bool) : List Char :=
  if rooted then ['/'] else []

/-- The clean form of the characters of a path, from its segments. -/
def cleanSegments (cs : List Char) : Option (List Char) :=
  let rooted := cs.head? = some '/'
  let pieces := cs.splitOn '/'
  (stackSegments rooted pieces.dropLast).map fun stack =>
    rootMark rooted ++ stack.reverse.flatMap (· ++ ['/']) ++ pieces.getLastD []

/-! ### The stack as text -/

/-- The text of a stack, newest character first: every segment has a separator behind it. -/
def trail (root : List Char) (stack : List (List Char)) : List Char :=
  stack.flatMap (fun segment => '/' :: segment.reverse) ++ root

/-- An empty stack leaves the root. -/
@[simp] theorem trail_nil (root : List Char) : trail root [] = root := rfl

/-- The top of the stack stands in front, read from behind. -/
@[simp] theorem trail_cons (root segment : List Char) (stack : List (List Char)) :
    trail root (segment :: stack) = '/' :: (segment.reverse ++ trail root stack) := by
  simp [trail]

/-- Read forward, every segment is followed by a separator. -/
theorem trail_reverse (rooted : Bool) (stack : List (List Char)) :
    (trail (rootMark rooted) stack).reverse =
      rootMark rooted ++ stack.reverse.flatMap (· ++ ['/']) := by
  induction stack with
  | nil => cases rooted <;> rfl
  | cons segment stack ih => simp [ih]

/-- What a stack can hold below a root: no segment is empty or contains a separator, and `.` stands
only where nothing is in front of it. -/
inductive Stacked (root : List Char) : List (List Char) → Prop
  | nil : Stacked root []
  | cons {segment : List Char} {stack : List (List Char)} : Stacked root stack → segment ≠ [] →
      '/' ∉ segment → (segment = ['.'] → trail root stack = []) → Stacked root (segment :: stack)

/-- Nothing but a separator stands at the end of a text. -/
def EndsClosed (out : List Char) : Prop :=
  ∀ c ∈ out.head?, c = '/'

/-- What is written so far ends in a separator. -/
theorem endsClosed_trail (rooted : Bool) (stack : List (List Char)) :
    EndsClosed (trail (rootMark rooted) stack) := by
  cases stack <;> cases rooted <;> simp [EndsClosed, rootMark]

/-! ### One separator -/

/-- Read from behind, the last segment ends at its separator. -/
theorem takeWhile_segment {segment out : List Char} (hsep : '/' ∉ segment)
    (hout : EndsClosed out) : (segment ++ out).takeWhile (· ≠ '/') = segment := by
  have hsegment : ∀ c ∈ segment, decide (c ≠ '/') = true := fun c hc =>
    decide_eq_true (by rintro rfl; exact hsep hc)
  rw [List.takeWhile_append_of_pos hsegment]
  cases out <;> simp_all [EndsClosed]

/-- And what is left begins with it. -/
theorem dropWhile_segment {segment out : List Char} (hsep : '/' ∉ segment)
    (hout : EndsClosed out) : (segment ++ out).dropWhile (· ≠ '/') = out := by
  have hsegment : ∀ c ∈ segment, decide (c ≠ '/') = true := fun c hc =>
    decide_eq_true (by rintro rfl; exact hsep hc)
  rw [List.dropWhile_append_of_pos hsegment]
  cases out <;> simp_all [EndsClosed]

namespace Cleaner

/-- A separator behind any other segment than `..` cuts nothing. -/
theorem climb_segment {segment out : List Char} (hsep : '/' ∉ segment) (hout : EndsClosed out)
    (hdots : segment = ['.', '.'] → out = []) :
    climb ('/' :: (segment.reverse ++ out)) = some ('/' :: (segment.reverse ++ out)) := by
  rw [← List.mem_reverse] at hsep
  unfold climb
  split
  · rename_i before heq
    obtain ⟨-, heq⟩ := List.cons.inj heq
    have hsegment := takeWhile_segment hsep hout
    have hrest := dropWhile_segment hsep hout
    rw [heq] at hsegment hrest
    have : segment = ['.', '.'] := List.reverse_eq_iff.1 hsegment.symm
    rw [hdots this] at hrest
    cases hrest
  · rfl

/-- A separator behind any other segment than `.` drops nothing. -/
theorem dropDot_segment {segment out : List Char} (hsep : '/' ∉ segment) (hout : EndsClosed out)
    (hdot : segment = ['.'] → out = []) :
    dropDot ('/' :: (segment.reverse ++ out)) = '/' :: (segment.reverse ++ out) := by
  rw [← List.mem_reverse] at hsep
  unfold dropDot
  split
  · rename_i before heq
    obtain ⟨-, heq⟩ := List.cons.inj heq
    have hsegment := takeWhile_segment hsep hout
    have hrest := dropWhile_segment hsep hout
    rw [heq] at hsegment hrest
    have : segment = ['.'] := List.reverse_eq_iff.1 hsegment.symm
    rw [hdot this] at hrest
    cases hrest
  · rfl

/-- What a stack can hold is not cut when it is written. -/
theorem dropDot_trail {rooted : Bool} {stack : List (List Char)}
    (h : Stacked (rootMark rooted) stack) :
    dropDot (trail (rootMark rooted) stack) = trail (rootMark rooted) stack := by
  cases h with
  | nil => cases rooted <;> rfl
  | cons hstack hne hsep hdot =>
    rw [trail_cons]
    exact dropDot_segment hsep (endsClosed_trail _ _) hdot

/-- `..` takes the top of the stack away, unless it is the last segment there. -/
theorem climb_trail {rooted : Bool} {stack : List (List Char)}
    (h : Stacked (rootMark rooted) stack) (hout : trail (rootMark rooted) stack ≠ []) :
    climb ('/' :: '.' :: '.' :: trail (rootMark rooted) stack) =
      if 2 ≤ stack.length then some (trail (rootMark rooted) stack.tail) else none := by
  cases h with
  | nil => cases rooted <;> simp_all [rootMark, climb]
  | cons hstack hne hsep hdot =>
    rename_i segment stack
    rw [← List.mem_reverse] at hsep
    have hrest := dropWhile_segment hsep (endsClosed_trail rooted stack)
    rw [trail_cons, climb, hrest]
    cases hstack with
    | nil => cases rooted <;> simp [rootMark]
    | cons hstack hne hsep hdot =>
      rename_i segment stack
      obtain ⟨c, cs, hcs⟩ := List.exists_cons_of_ne_nil (List.reverse_ne_nil_iff.2 hne)
      simp [hcs]

/-- The characters of a segment are written as they are. -/
theorem push_segment {segment : List Char} (hsep : '/' ∉ segment) (out : List Char) (b : Bool) :
    segment.foldlM push ⟨out, b⟩ =
      some ⟨segment.reverse ++ out, if segment = [] then b else false⟩ := by
  induction segment generalizing out b with
  | nil => rfl
  | cons c segment ih =>
    obtain ⟨hc, hsep⟩ := List.ne_and_not_mem_of_not_mem_cons hsep
    have hpush : push ⟨out, b⟩ c = some ⟨c :: out, false⟩ := by
      have hclimb : climb (c :: out) = some (c :: out) := by
        unfold climb; split
        · simp_all
        · rfl
      have hdrop : dropDot (c :: out) = c :: out := by
        unfold dropDot; split
        · simp_all
        · rfl
      simp [push, hclimb, hdrop, hc.symm]
    rw [List.foldlM_cons, hpush]
    simp [ih hsep]

end Cleaner

/-! ### A whole path -/

/-- A stack without its top is still one. -/
theorem Stacked.tail {root : List Char} {stack : List (List Char)} (h : Stacked root stack) :
    Stacked root stack.tail := by
  cases h with
  | nil => exact .nil
  | cons h => exact h

/-- **A segment keeps the stack in order.** -/
theorem Stacked.stackSegment {root : List Char} {stack stack' : List (List Char)}
    (h : Stacked root stack) (hout : trail root stack ≠ []) {segment : List Char}
    (hsep : '/' ∉ segment) (hs : stackSegment stack segment = some stack') :
    Stacked root stack' ∧ trail root stack' ≠ [] := by
  unfold Path.stackSegment at hs
  split_ifs at hs with hdrop hdots htwo <;> obtain rfl := Option.some.inj hs
  · exact ⟨h, hout⟩
  · refine ⟨h.tail, ?_⟩
    cases stack with
    | nil => simp at htwo
    | cons segment stack =>
      obtain ⟨segment', stack, rfl⟩ : ∃ s t, stack = s :: t :=
        List.exists_cons_of_length_pos (Nat.le_of_succ_le_succ htwo)
      simp
  · obtain ⟨hempty, hdot⟩ := not_or.1 hdrop
    exact ⟨.cons h hempty hsep fun hsegment => absurd hsegment hdot, by simp⟩

/-- A segment and the separator behind it do to the output what the segment does to the stack. -/
theorem Cleaner.read_segment {rooted : Bool} {stack : List (List Char)}
    (h : Stacked (rootMark rooted) stack) (hout : trail (rootMark rooted) stack ≠ [])
    {segment : List Char} (hsep : '/' ∉ segment) :
    (segment ++ ['/']).foldlM push ⟨trail (rootMark rooted) stack, true⟩ =
      (stackSegment stack segment).map fun stack => ⟨trail (rootMark rooted) stack, true⟩ := by
  have hclosed := endsClosed_trail rooted stack
  rw [List.foldlM_append, push_segment hsep]
  by_cases hempty : segment = []
  · subst hempty
    simp [push, stackSegment]
  · simp only [hempty, if_false, Option.bind_eq_bind, Option.bind_some, List.foldlM_cons,
      List.foldlM_nil, push, Bool.false_eq_true, and_false, stackSegment, false_or]
    by_cases hdots : segment = ['.', '.']
    · subst hdots
      have hclimb := climb_trail h hout
      simp only [List.reverse_cons, List.reverse_nil, List.nil_append, List.cons_append, hclimb]
      split_ifs <;> simp_all [dropDot_trail h.tail]
    · rw [climb_segment hsep hclosed fun h => absurd h hdots]
      by_cases hdot : segment = ['.']
      · subst hdot
        cases htrail : trail (rootMark rooted) stack with
        | nil => exact absurd htrail hout
        | cons c out =>
          obtain rfl : c = '/' := hclosed c (by simp [htrail])
          simp [dropDot, htrail]
      · rw [Option.map_some, dropDot_segment hsep hclosed fun h => absurd h hdot]
        simp [hdot, hdots]

/-- **The output is the stack.**  Reading segments, each with a separator behind it, does to the
output what the segments do to the stack. -/
theorem Cleaner.read_segments {rooted : Bool} {stack : List (List Char)}
    (h : Stacked (rootMark rooted) stack) (hout : trail (rootMark rooted) stack ≠ [])
    {segments : List (List Char)} (hsep : ∀ segment ∈ segments, '/' ∉ segment) :
    (segments.flatMap (· ++ ['/'])).foldlM push ⟨trail (rootMark rooted) stack, true⟩ =
      (segments.foldlM stackSegment stack).map
        fun stack => ⟨trail (rootMark rooted) stack, true⟩ := by
  induction segments generalizing stack with
  | nil => rfl
  | cons segment segments ih =>
    obtain ⟨hsegment, hsep⟩ := List.forall_mem_cons.1 hsep
    rw [List.flatMap_cons, List.foldlM_append, read_segment h hout hsegment, List.foldlM_cons]
    cases hs : stackSegment stack segment with
    | none => rfl
    | some stack' =>
      obtain ⟨h', hout'⟩ := h.stackSegment hout hsegment hs
      exact ih h' hout' hsep

/-- Every text is made of segments with a separator behind them and a last one without. -/
theorem exists_segments (cs : List Char) :
    ∃ (segments : List (List Char)) (last : List Char), (∀ segment ∈ segments, '/' ∉ segment) ∧
      '/' ∉ last ∧ cs = segments.flatMap (· ++ ['/']) ++ last := by
  induction cs with
  | nil => exact ⟨[], [], by simp⟩
  | cons c cs ih =>
    obtain ⟨segments, last, hsep, hlast, rfl⟩ := ih
    by_cases hc : c = '/'
    · exact ⟨[] :: segments, last, by simpa using hsep, hlast, by simp [hc]⟩
    · cases segments with
      | nil => exact ⟨[], c :: last, by simp, by simp [hlast, Ne.symm hc], by simp⟩
      | cons segment segments =>
        refine ⟨(c :: segment) :: segments, last, ?_, hlast, by simp⟩
        simpa [Ne.symm hc] using hsep

/-- Splitting finds the segments again. -/
theorem splitOn_segments {segments : List (List Char)} {last : List Char}
    (hsep : ∀ segment ∈ segments, '/' ∉ segment) (hlast : '/' ∉ last) :
    (segments.flatMap (· ++ ['/']) ++ last).splitOn '/' = segments ++ [last] := by
  induction segments with
  | nil => simpa using List.splitOn_eq_singleton hlast
  | cons segment segments ih =>
    obtain ⟨hsegment, hsep⟩ := List.forall_mem_cons.1 hsep
    rw [List.flatMap_cons, List.append_assoc, List.append_assoc, List.singleton_append,
      List.splitOn_append_cons_self_of_not_mem hsegment, ih hsep, List.cons_append]

/-- The machine over the segments of a text. -/
theorem cleanSegments_segments {segments : List (List Char)} {last : List Char}
    (hsep : ∀ segment ∈ segments, '/' ∉ segment) (hlast : '/' ∉ last) :
    cleanSegments (segments.flatMap (· ++ ['/']) ++ last) =
      (stackSegments (segments.head? = some []) segments).map fun stack =>
        (trail (rootMark (segments.head? = some [])) stack).reverse ++ last := by
  have hroot : (segments.flatMap (· ++ ['/']) ++ last).head? = some '/' ↔
      segments.head? = some [] := by
    cases segments with
    | nil => cases last <;> simp_all [eq_comm]
    | cons segment segments =>
      cases segment <;> simp_all [eq_comm]
  simp only [cleanSegments, splitOn_segments hsep hlast, List.dropLast_concat,
    List.getLastD_concat, hroot, trail_reverse]

/-- The first segment of a path leaves the root mark or itself. -/
theorem Cleaner.read_first {first : List Char} (hsep : '/' ∉ first) :
    ∃ stack, Stacked (rootMark (first = [])) stack ∧
      trail (rootMark (first = [])) stack ≠ [] ∧
      (first ++ ['/']).foldlM push {} = some ⟨trail (rootMark (first = [])) stack, true⟩ ∧
      ∀ rest, stackSegments (first = []) (first :: rest) = rest.foldlM stackSegment stack := by
  by_cases hroot : first = []
  · subst hroot
    exact ⟨[], .nil, by simp [rootMark], rfl, fun rest => rfl⟩
  · refine ⟨[first], .cons .nil hroot hsep fun _ => by simp [hroot, rootMark], by simp, ?_, ?_⟩
    · have hclosed : EndsClosed [] := by simp [EndsClosed]
      have hclimb := climb_segment hsep hclosed fun _ => rfl
      have hdrop := dropDot_segment hsep hclosed fun _ => rfl
      rw [List.append_nil] at hclimb hdrop
      rw [List.foldlM_append, push_segment hsep]
      simp [hroot, push, hclimb, hdrop, rootMark]
    · intro rest
      simp [stackSegments, hroot]

/-- **The pass over the characters is the machine over the segments.** -/
theorem normalizeChars_eq_cleanSegments (cs : List Char) :
    normalizeChars cs = cleanSegments cs := by
  obtain ⟨segments, last, hsep, hlast, rfl⟩ := exists_segments cs
  rw [cleanSegments_segments hsep hlast, normalizeChars, List.foldlM_append]
  cases segments with
  | nil => simp [stackSegments, Cleaner.push_segment hlast, rootMark]
  | cons first rest =>
    obtain ⟨hfirst, hsep⟩ := List.forall_mem_cons.1 hsep
    obtain ⟨stack, hstack, hout, hread, hrest⟩ := Cleaner.read_first hfirst
    have hfirst' : ((first :: rest).head? = some []) = (first = []) := by simp
    simp only [hfirst', hrest]
    rw [List.flatMap_cons, List.foldlM_append, hread, Option.bind_eq_bind,
      Option.bind_some, Cleaner.read_segments hstack hout hsep]
    cases rest.foldlM stackSegment stack with
    | none => rfl
    | some stack' => simp [Cleaner.push_segment hlast]

end Path
end FlashVolume

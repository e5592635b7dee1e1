import FlashVolume.Text.Place
/-!
# Positions in a YAML text

A cursor is what follows a position, with the place of that position: how many characters stand
before it, and its line and column. A line feed ends a line; a carriage return is a line break too,
but by itself it leaves the line as it is.
-/

namespace FlashVolume
namespace Yaml

/-- A line break. -/
def isBreak (c : Char) : Bool :=
  c = '\n' || c = '\r'

/-- A space or a tab. -/
def isBlank (c : Char) : Bool :=
  c = ' ' || c = '\t'

/-- What ends a word: a space, a tab or a line break. -/
def isGap (c : Char) : Bool :=
  isBlank c || isBreak c

/-- What the names of anchors, tags and directives consist of. -/
def isWordChar (c : Char) : Bool :=
  c.isAlphanum || c = '_' || c = '-'

/-- The marks of lists and mappings in brackets. -/
def isFlow (c : Char) : Bool :=
  c = ',' || c = '[' || c = ']' || c = '{' || c = '}'

/-- Whether a gap or the end of the text stands here. -/
def atGap (cs : List Char) : Bool :=
  cs.head?.all isGap

/-- A position in a text. -/
structure Cursor where
  /-- What follows. -/
  chars : List Char
  index : Nat := 0
  line : Nat := 0
  column : Nat := 0
deriving DecidableEq, Repr

namespace Cursor

/-- The position behind a character. -/
def next (c : Cursor) : Cursor :=
  match c.chars with
  | [] => c
  | u :: cs =>
    if u = '\n' then ⟨cs, c.index + 1, c.line + 1, 0⟩ else ⟨cs, c.index + 1, c.line, c.column + 1⟩

/-- A step takes one character. -/
@[simp] theorem chars_next (c : Cursor) : c.next.chars = c.chars.tail := by
  unfold next
  split
  case h_1 heq => rw [heq]; rfl
  case h_2 heq => rw [heq]; split <;> rfl

/-- A step counts the character that it takes. -/
theorem index_next {c : Cursor} (h : c.chars ≠ []) : c.next.index = c.index + 1 := by
  unfold next
  split
  case h_1 heq => exact absurd heq h
  case h_2 => split <;> rfl

/-- The position behind some characters. -/
def advance : Nat → Cursor → Cursor
  | 0, c => c
  | n + 1, c => advance n c.next

/-- Some steps take as many characters. -/
@[simp] theorem chars_advance (n : Nat) (c : Cursor) : (c.advance n).chars = c.chars.drop n := by
  induction n generalizing c with
  | zero => rfl
  | succ n ih => rw [advance, ih, chars_next, List.drop_tail]

/-- **The index counts what stands before a position.** -/
theorem index_advance {n : Nat} {c : Cursor} (h : n ≤ c.chars.length) :
    (c.advance n).index = c.index + n := by
  induction n generalizing c with
  | zero => rfl
  | succ n ih =>
    have hne : c.chars ≠ [] := List.ne_nil_of_length_pos (by omega)
    rw [advance, ih (by rw [chars_next, List.length_tail]; omega), index_next hne]
    omega

/-- Steps are counted together. -/
theorem advance_advance (m n : Nat) (c : Cursor) :
    (c.advance m).advance n = c.advance (m + n) := by
  induction m generalizing c with
  | zero => rw [advance, Nat.zero_add]
  | succ m ih => rw [advance, ih, Nat.succ_add, advance]

/-- **On a line** the column counts along. -/
theorem advance_on_line {n : Nat} {c : Cursor} (hn : n ≤ c.chars.length)
    (h : ∀ u ∈ c.chars.take n, u ≠ '\n') :
    (c.advance n).line = c.line ∧ (c.advance n).column = c.column + n := by
  induction n generalizing c with
  | zero => exact ⟨rfl, rfl⟩
  | succ n ih =>
    obtain ⟨u, cs, hcs⟩ := List.exists_cons_of_ne_nil (l := c.chars)
      (List.ne_nil_of_length_pos (by omega))
    rw [hcs] at hn h
    have hnext : c.next = ⟨cs, c.index + 1, c.line, c.column + 1⟩ := by
      simp [next, hcs, h u (by simp)]
    have hrest := ih (c := c.next) (by simpa [hnext] using hn)
      fun v hv => h v (by simp [by simpa [hnext] using hv])
    rw [advance, hrest.1, hrest.2, hnext]
    exact ⟨rfl, by dsimp only; omega⟩

/-- The positions behind one are those that come after some more characters. -/
instance : Place Cursor where
  IsBehind c d := ∃ n, d = c.advance n
  refl _ := ⟨0, rfl⟩
  trans := by
    rintro c _ _ ⟨m, rfl⟩ ⟨n, rfl⟩
    exact ⟨m + n, advance_advance m n c⟩

/-- What comes after some characters is behind them. -/
theorem advance_behind (n : Nat) (c : Cursor) : Place.IsBehind c (c.advance n) :=
  ⟨n, rfl⟩

/-- The next position is behind. -/
theorem next_behind (c : Cursor) : Place.IsBehind c c.next :=
  advance_behind 1 c

/-- **What follows a position behind another is an end of what follows that.** -/
theorem chars_suffix {c d : Cursor} (h : Place.IsBehind c d) : d.chars <:+ c.chars := by
  obtain ⟨n, rfl⟩ := h
  rw [chars_advance]
  exact List.drop_suffix n c.chars

/-- The position behind a line break, if one stands here. -/
def skipBreak (c : Cursor) : Cursor :=
  match c.chars with
  | '\r' :: '\n' :: _ => c.advance 2
  | u :: _ => if isBreak u then c.next else c
  | [] => c

/-- A line break is passed over or there is none. -/
theorem skipBreak_behind (c : Cursor) : Place.IsBehind c c.skipBreak := by
  unfold skipBreak
  split
  · exact advance_behind 2 c
  · split
    · exact next_behind c
    · exact Place.refl c
  · exact Place.refl c

/-- The characters of one kind that stand here. -/
def run (c : Cursor) (kind : Char → Bool) : List Char :=
  c.chars.takeWhile kind

/-- The position behind the characters of one kind. -/
def skip (c : Cursor) (kind : Char → Bool) : Cursor :=
  c.advance (c.run kind).length

/-- Characters of one kind are passed over. -/
theorem skip_behind (c : Cursor) (kind : Char → Bool) : Place.IsBehind c (c.skip kind) :=
  advance_behind _ c

/-- Dropping as many as there are of one kind at the start leaves what is behind them. -/
theorem drop_length_takeWhile {α : Type} (kind : α → Bool) (cs : List α) :
    cs.drop (cs.takeWhile kind).length = cs.dropWhile kind := by
  have hsplit := List.takeWhile_append_dropWhile (p := kind) (l := cs)
  calc cs.drop (cs.takeWhile kind).length
      = (cs.takeWhile kind ++ cs.dropWhile kind).drop (cs.takeWhile kind).length := by rw [hsplit]
    _ = cs.dropWhile kind := List.drop_left

/-- **What is skipped is of its kind,** and all that stands here. -/
theorem chars_skip (c : Cursor) (kind : Char → Bool) :
    (c.skip kind).chars = c.chars.dropWhile kind := by
  rw [skip, chars_advance, run]
  exact drop_length_takeWhile kind c.chars

/-- The position at the end of the line. -/
def skipLine (c : Cursor) : Cursor :=
  c.skip fun u => !isBreak u

/-- The position behind blanks and a comment. -/
def skipComment (c : Cursor) : Cursor :=
  let c := c.skip isBlank
  if c.chars.head? = some '#' then c.skipLine else c

/-- Blanks and a comment are passed over. -/
theorem skipComment_behind (c : Cursor) : Place.IsBehind c c.skipComment := by
  unfold skipComment
  dsimp only
  split
  · exact Place.trans (skip_behind c isBlank) (skip_behind _ _)
  · exact skip_behind c isBlank

/-- Whether a line break or the end of the text stands here. -/
def atBreak (c : Cursor) : Bool :=
  c.chars.head?.all isBreak

/-- **The end of a line is a line break or the end of the text.** -/
theorem atBreak_skipLine (c : Cursor) : c.skipLine.atBreak = true := by
  rw [atBreak, skipLine, chars_skip]
  have hend := List.head?_dropWhile_not (fun u => !isBreak u) c.chars
  cases h : (c.chars.dropWhile fun u => !isBreak u).head? with
  | none => rfl
  | some u => simpa [h] using hend

/-- Whether a word stands here as a whole at the start of a line. -/
def atMark (c : Cursor) (mark : List Char) : Bool :=
  c.column = 0 && mark.isPrefixOf c.chars && atGap (c.chars.drop mark.length)

/-- The mark that starts a document. -/
def startMark : List Char := ['-', '-', '-']

/-- The mark that ends a document. -/
def endMark : List Char := ['.', '.', '.']

/-- Whether a document starts or ends here. -/
def atDocumentMark (c : Cursor) : Bool :=
  c.atMark startMark || c.atMark endMark

end Cursor
end Yaml
end FlashVolume

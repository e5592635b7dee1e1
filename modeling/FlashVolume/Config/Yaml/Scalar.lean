import FlashVolume.Config.Yaml.Cursor
import FlashVolume.Text.Based
/-!
# Scalars of YAML

A scalar is written plainly, in quotes, or as a block of lines.

* The words of a plain scalar or one in quotes may stand on several lines. A gap with one line break
  is a space, one with more of them is one break less; the blanks of a gap count only if no line
  break follows them.
* A plain scalar ends before `#` behind a gap, before `:` at a gap, before a line that is not
  indented enough, and between brackets before their marks.
* In double quotes there are escapes, and a backslash before a line break drops it. In single quotes
  two quotes are one.
* A block keeps its lines (`|`) or folds them (`>`). Of the line breaks at its end it keeps one,
  none (`-`) or all (`+`).

No scalar but a block goes on over the marks of a document.
-/

namespace FlashVolume
namespace Yaml

/-! ## Gaps -/

/-- What stands between two words of a scalar. -/
structure Gap where
  /-- The blanks before any line break. -/
  blanks : List Char := []
  /-- Whether a line ends in the gap. -/
  isBroken : Bool := false
  /-- How many line breaks there are that count. -/
  breaks : Nat := 0
deriving DecidableEq, Repr

/-- What a gap stands for. A line that a backslash joins to the next has no break that counts. -/
def Gap.text (g : Gap) (isJoined : Bool) : List Char :=
  if ¬ g.isBroken then g.blanks
  else if isJoined then List.replicate g.breaks '\n'
  else if g.breaks = 1 then [' ']
  else List.replicate (g.breaks - 1) '\n'

/-- **Words on different lines stay apart.** -/
theorem Gap.text_ne_nil {g : Gap} (h : g.isBroken = true) (hbreaks : 0 < g.breaks) :
    g.text false ≠ [] := by
  by_cases hone : g.breaks = 1
  · simp [Gap.text, h, hone]
  · have hmore : g.breaks - 1 ≠ 0 := by omega
    simp [Gap.text, h, hone, hmore]

/-- Reads a gap, and answers it with the position behind it. On a line that it breaks, a tab is not
allowed before the column `least`. -/
def gap? (least : Nat) : Nat → Gap → Cursor → Option (Gap × Cursor)
  | 0, g, c => some (g, c)
  | fuel + 1, g, c =>
    match c.chars with
    | [] => some (g, c)
    | u :: _ =>
      if isBlank u then
        if g.isBroken then
          if u = '\t' ∧ c.column < least then none else gap? least fuel g c.next
        else gap? least fuel { g with blanks := g.blanks ++ [u] } c.next
      else if isBreak u then
        gap? least fuel { g with isBroken := true, breaks := g.breaks + 1 } c.skipBreak
      else some (g, c)

/-- A gap is read up to the next word. -/
theorem gap?_leaves (least fuel : Nat) (g : Gap) (c : Cursor) :
    Leaves Prod.snd c (gap? least fuel g c) := by
  induction fuel generalizing g c with
  | zero => exact leaves_some (Place.refl c)
  | succ fuel ih =>
    unfold gap?
    split
    case h_1 => exact leaves_some (Place.refl c)
    case h_2 =>
      have hnext : ∀ g, Leaves Prod.snd c (gap? least fuel g c.next) :=
        fun g => (ih g c.next).behind c.next_behind
      refine .ite (.ite (.ite leaves_none (hnext g)) (hnext _)) (.ite ?_ ?_)
      · exact (ih _ c.skipBreak).behind c.skipBreak_behind
      · exact leaves_some (Place.refl c)

/-! ## Plain scalars -/

/-- The characters up to the end of a word of a plain scalar. -/
def plainWord (inFlow : Bool) : List Char → List Char
  | [] => []
  | u :: cs =>
    let ends := isGap u || u = ':' && (atGap cs || inFlow && cs.head?.any isFlow)
      || inFlow && isFlow u
    if ends then [] else u :: plainWord inFlow cs

/-- **A word is what stands there, up to a gap at the latest.** -/
theorem plainWord_isPrefix (inFlow : Bool) (cs : List Char) :
    plainWord inFlow cs <+: cs ∧ ∀ u ∈ plainWord inFlow cs, isGap u = false := by
  induction cs with
  | nil => exact ⟨List.prefix_rfl, by simp [plainWord]⟩
  | cons u cs ih =>
    unfold plainWord
    dsimp only
    split
    case isTrue => exact ⟨List.nil_prefix, by simp⟩
    case isFalse hends =>
      have hgap : isGap u = false := by
        cases h : isGap u with
        | true => exact absurd (by simp [h]) hends
        | false => rfl
      exact ⟨(List.prefix_cons_inj u).2 ih.1, List.forall_mem_cons.2 ⟨hgap, ih.2⟩⟩

/-- Reads on in a plain scalar behind a text and a gap, and answers it with whether a line break
stands between its end and the position behind it, which comes last. Its lines start at the column
`least`. -/
def plain? (inFlow : Bool) (least : Nat) :
    Nat → List Char → Gap → Cursor → Option (List Char × Bool × Cursor)
  | 0, _, _, _ => none
  | fuel + 1, text, g, c =>
    if c.atDocumentMark ∨ c.chars.head? = some '#' then some (text, g.isBroken, c)
    else
      let word := plainWord inFlow c.chars
      let (text, g) := if word.isEmpty then (text, g) else (text ++ g.text false ++ word, {})
      let c := c.advance word.length
      if ¬ c.chars.head?.any isGap then some (text, g.isBroken, c)
      else
        match gap? least c.chars.length g c with
        | none => none
        | some (g, c) =>
          if ¬ inFlow ∧ c.column < least then some (text, g.isBroken, c)
          else plain? inFlow least fuel text g c

/-- A plain scalar is read up to its last word or the gap behind it. -/
theorem plain?_leaves (inFlow : Bool) (least fuel : Nat) (text : List Char) (g : Gap) (c : Cursor) :
    Leaves (fun read => read.2.2) c (plain? inFlow least fuel text g c) := by
  induction fuel generalizing text g c with
  | zero => exact leaves_none
  | succ fuel ih =>
    refine .ite (leaves_some (Place.refl c)) ?_
    refine .behind ?_ (c.advance_behind (plainWord inFlow c.chars).length)
    refine .ite (leaves_some (Place.refl _)) ?_
    split
    case h_1 => exact leaves_none
    case h_2 g' c' heq =>
      have hgap := gap?_leaves _ _ _ _ _ heq
      exact .ite (leaves_some hgap) ((ih _ g' c').behind hgap)

/-! ## Scalars in quotes -/

/-- The characters of the escapes without digits. -/
def escapes : List (Char × Nat) :=
  [('0', 0), ('a', 0x7), ('b', 0x8), ('t', 0x9), ('\t', 0x9), ('n', 0xA), ('v', 0xB), ('f', 0xC),
   ('r', 0xD), ('e', 0x1B), (' ', 0x20), ('"', 0x22), ('\'', 0x27), ('\\', 0x5C), ('N', 0x85),
   ('_', 0xA0), ('L', 0x2028), ('P', 0x2029)]

/-- How many digits an escape with a code point has. -/
def digitCount? (u : Char) : Option Nat :=
  if u = 'x' then some 2
  else if u = 'u' then some 4
  else if u = 'U' then some 8
  else none

/-- Reads an escape behind its backslash, and answers its character with its length. -/
def escape? : List Char → Option (Char × Nat)
  | [] => none
  | u :: cs =>
    match escapes.lookup u with
    | some n => some (Char.ofNat n, 1)
    | none => do
      let count ← digitCount? u
      if cs.length < count then none
      else return (← Text.codePoint? (cs.take count), count + 1)

/-- **An escape stands there as a whole.** -/
theorem length_of_escape? {cs : List Char} {u : Char} {length : Nat}
    (h : escape? cs = some (u, length)) : 0 < length ∧ length ≤ cs.length := by
  unfold escape? at h
  split at h
  case h_1 => cases h
  case h_2 v cs =>
    split at h
    case h_1 => cases h; simp
    case h_2 =>
      obtain ⟨count, _, h⟩ := Option.bind_eq_some_iff.1 h
      obtain ⟨hlength, h⟩ := Option.ite_none_left_eq_some.1 h
      obtain ⟨_, _, ⟨⟩⟩ := Option.bind_eq_some_iff.1 h
      rw [List.length_cons]
      omega

/-- Reads a word of a scalar in quotes. Answers it with whether a backslash joins its line to the
next, and the position behind it. -/
def quotedWord? (quote : Char) : Nat → Cursor → Option (List Char × Bool × Cursor)
  | 0, c => some ([], false, c)
  | fuel + 1, c =>
    match c.chars with
    | [] => some ([], false, c)
    | u :: cs =>
      if isGap u then some ([], false, c)
      else if u = quote then
        if quote = '\'' ∧ cs.head? = some '\'' then do
          let (word, isJoined, c) ← quotedWord? quote fuel (c.advance 2)
          return (u :: word, isJoined, c)
        else some ([], false, c)
      else if u = '\\' ∧ quote = '"' then
        if cs.head?.any isBreak then some ([], true, c.next.skipBreak)
        else do
          let (v, length) ← escape? cs
          let (word, isJoined, c) ← quotedWord? quote fuel (c.advance (length + 1))
          return (v :: word, isJoined, c)
      else do
        let (word, isJoined, c) ← quotedWord? quote fuel c.next
        return (u :: word, isJoined, c)

/-- A word in quotes is read up to a gap, a joined line or the closing quote. -/
theorem quotedWord?_leaves (quote : Char) (fuel : Nat) (c : Cursor) :
    Leaves (fun read => read.2.2) c (quotedWord? quote fuel c) := by
  induction fuel generalizing c with
  | zero => exact leaves_some (Place.refl c)
  | succ fuel ih =>
    have hmore : ∀ (n : Nat) (u : Char), Leaves (fun read => read.2.2) c
        ((quotedWord? quote fuel (c.advance n)).bind fun (word, isJoined, c) =>
          some (u :: word, isJoined, c)) :=
      fun n u => .bind ((ih _).behind (c.advance_behind n)) fun _ => leaves_some (Place.refl _)
    unfold quotedWord?
    split
    case h_1 => exact leaves_some (Place.refl c)
    case h_2 u cs _ =>
      refine .ite (leaves_some (Place.refl c)) (.ite ?_ (.ite (.ite ?_ ?_) (hmore 1 u)))
      · exact .ite (hmore 2 u) (leaves_some (Place.refl c))
      · exact leaves_some (Place.trans c.next_behind (Cursor.skipBreak_behind _))
      · exact leaves_bind fun ⟨v, length⟩ => hmore (length + 1) v

/-- **A word is read back** up to the closing quote, if all its characters stand for themselves. -/
theorem quotedWord?_append {quote : Char} {word rest : List Char}
    (h : ∀ u ∈ word, isGap u = false ∧ u ≠ quote ∧ u ≠ '\\') (hquote : isGap quote = false)
    (hrest : rest.head? ≠ some '\'') {c : Cursor} (hc : c.chars = word ++ quote :: rest)
    {fuel : Nat} (hfuel : word.length ≤ fuel) :
    quotedWord? quote fuel c = some (word, false, c.advance word.length) := by
  induction word generalizing c fuel with
  | nil =>
    cases fuel with
    | zero => rfl
    | succ fuel => simp [quotedWord?, hc, hquote, hrest, Cursor.advance]
  | cons u word ih =>
    obtain ⟨fuel, rfl⟩ := Nat.exists_eq_succ_of_ne_zero (Nat.ne_of_gt (Nat.zero_lt_of_lt hfuel))
    obtain ⟨hgap, hclose, hescape⟩ := h u (by simp)
    have hread := ih (fun v hv => h v (by simp [hv])) (c := c.next) (by simp [hc])
      (by simpa using hfuel)
    simp [quotedWord?, hc, hgap, hclose, hescape, hread, Cursor.advance]

/-- Reads on in a scalar in quotes behind a text, and answers it with the position behind its
closing quote. -/
def quoted? (quote : Char) : Nat → List Char → Cursor → Option (List Char × Cursor)
  | 0, _, _ => none
  | fuel + 1, text, c =>
    if c.atDocumentMark ∨ c.chars.isEmpty then none
    else do
      let (word, isJoined, c) ← quotedWord? quote c.chars.length c
      if c.chars.head? = some quote then return (text ++ word, c.next)
      else
        let (g, c) ← gap? 0 c.chars.length { isBroken := isJoined } c
        quoted? quote fuel (text ++ word ++ g.text isJoined) c

/-- A scalar in quotes is read up to its closing quote. -/
theorem quoted?_leaves (quote : Char) (fuel : Nat) (text : List Char) (c : Cursor) :
    Leaves Prod.snd c (quoted? quote fuel text c) := by
  induction fuel generalizing text c with
  | zero => exact leaves_none
  | succ fuel ih =>
    refine .ite leaves_none ?_
    refine (quotedWord?_leaves quote _ c).bind fun ⟨_, _, c⟩ => .ite (leaves_some c.next_behind) ?_
    exact (gap?_leaves _ _ _ c).bind fun ⟨_, c⟩ => ih _ c

/-! ## Blocks of lines -/

/-- What becomes of the line breaks at the end of a block. -/
inductive Chomping where
  | strip
  | clip
  | keep
deriving DecidableEq, Repr

/-- The chomping that a sign asks for. -/
def chomping? (u : Char) : Option Chomping :=
  if u = '+' then some .keep else if u = '-' then some .strip else none

/-- Reads the header of a block behind its mark, up to the first of its lines. Answers the chomping
and the indentation that it asks for with the position behind it. -/
def blockHeader? (c : Cursor) : Option (Chomping × Option Nat × Cursor) :=
  let chomping := c.chars.head?.bind chomping?
  let c := if chomping.isSome then c.next else c
  let width := (c.chars.head?.filter Char.isDigit).map fun d => d.toNat - 48
  let c := if width.isSome then c.next else c
  let late := if chomping.isNone ∧ width.isSome then c.chars.head?.bind chomping? else none
  let c := (if late.isSome then c.next else c).skipComment
  if width = some 0 ∨ ¬ c.atBreak then none
  else some ((chomping.or late).getD .clip, width, c.skipBreak)

/-- The header of a block is read up to the first of its lines. -/
theorem blockHeader?_leaves (c : Cursor) :
    Leaves (fun read => read.2.2) c (blockHeader? c) := by
  have hmark : ∀ (p : Prop) [Decidable p] (c : Cursor),
      Place.IsBehind c (if p then c.next else c) := by
    intro p _ c
    split
    · exact c.next_behind
    · exact Place.refl c
  refine .ite leaves_none (leaves_some ?_)
  refine Place.trans ?_ (Cursor.skipBreak_behind _)
  refine Place.trans ?_ (Cursor.skipComment_behind _)
  exact Place.trans (Place.trans (hmark _ c) (hmark _ _)) (hmark _ _)

/-- Reads the indentation of a line, and all empty lines before it. Answers the number of those, and
the widest indentation, with the position behind it. A line is indented up to the column `width`, or
as far as it goes if there is none. -/
def blockIndent? (width : Option Nat) : Nat → Nat → Nat → Cursor → Option (Nat × Nat × Cursor)
  | 0, breaks, widest, c => some (breaks, widest, c)
  | fuel + 1, breaks, widest, c =>
    let spaces := (c.run (· = ' ')).length
    let c := c.advance (match width with
      | none => spaces
      | some width => min spaces (width - c.column))
    let widest := max widest c.column
    if c.chars.head? = some '\t' ∧ width.all (c.column < ·) then none
    else if c.chars.head?.any isBreak then
      blockIndent? width fuel (breaks + 1) widest c.skipBreak
    else some (breaks, widest, c)

/-- An indentation is read with all empty lines before it. -/
theorem blockIndent?_leaves (width : Option Nat) (fuel breaks widest : Nat) (c : Cursor) :
    Leaves (fun read => read.2.2) c (blockIndent? width fuel breaks widest c) := by
  induction fuel generalizing breaks widest c with
  | zero => exact leaves_some (Place.refl c)
  | succ fuel ih =>
    refine .behind (.ite leaves_none (.ite ?_ (leaves_some (Place.refl _)))) (c.advance_behind _)
    exact (ih _ _ _).behind (Cursor.skipBreak_behind _)

/-- Where the reader of a block stands. -/
structure BlockReader where
  text : List Char := []
  /-- Whether the line before ended in a line break that has not been taken yet. -/
  isBroken : Bool := false
  /-- The empty lines behind that. -/
  breaks : Nat := 0
  /-- Whether the line before started with a blank. -/
  wasBlank : Bool := false

/-- What stands for the line breaks before a line. Where lines are folded, one break is a space, and
of more the first is dropped, unless one of the lines around starts with a blank. -/
def BlockReader.breakText (r : BlockReader) (folds isBlank : Bool) : List Char :=
  let first :=
    if ¬ r.isBroken then []
    else if folds ∧ ¬ r.wasBlank ∧ ¬ isBlank then if r.breaks = 0 then [' '] else []
    else ['\n']
  first ++ List.replicate r.breaks '\n'

/-- The text of a block at its end. -/
def BlockReader.finish (r : BlockReader) (chomping : Chomping) : List Char :=
  let last := if r.isBroken ∧ chomping ≠ .strip then ['\n'] else []
  r.text ++ last ++ if chomping = .keep then List.replicate r.breaks '\n' else []

/-- **A block that is stripped ends in its text.** -/
theorem BlockReader.finish_strip (r : BlockReader) : r.finish .strip = r.text := by
  simp [finish]

/-- **A block that is kept ends in all its line breaks.** -/
theorem BlockReader.finish_keep {r : BlockReader} (h : r.isBroken = true) :
    r.finish .keep = r.text ++ List.replicate (r.breaks + 1) '\n' := by
  simp [finish, h, List.replicate_succ]

/-- Reads the lines of a block that are indented up to the column `width`, and answers its reader
with the position behind them. -/
def blockLines? (folds : Bool) (width : Nat) :
    Nat → BlockReader → Cursor → Option (BlockReader × Cursor)
  | 0, _, _ => none
  | fuel + 1, r, c =>
    match c.chars with
    | [] => some (r, c)
    | u :: _ =>
      if c.column ≠ width then some (r, c)
      else
        let text := r.text ++ r.breakText folds (isBlank u) ++ c.run fun u => !isBreak u
        let c := c.skipLine
        if c.chars.isEmpty then some ({ text }, c)
        else do
          let c := c.skipBreak
          let (breaks, _, c) ← blockIndent? (some width) (c.chars.length + 1) 0 0 c
          blockLines? folds width fuel ⟨text, true, breaks, isBlank u⟩ c

/-- The lines of a block are read as long as they are indented. -/
theorem blockLines?_leaves (folds : Bool) (width fuel : Nat) (r : BlockReader) (c : Cursor) :
    Leaves Prod.snd c (blockLines? folds width fuel r c) := by
  induction fuel generalizing r c with
  | zero => exact leaves_none
  | succ fuel ih =>
    unfold blockLines?
    split
    case h_1 => exact leaves_some (Place.refl c)
    case h_2 =>
      have hline : Place.IsBehind c c.skipLine := c.skip_behind _
      refine .ite (leaves_some (Place.refl c)) (.ite (leaves_some hline) (.behind ?_ hline))
      refine .behind ?_ (Cursor.skipBreak_behind _)
      exact (blockIndent?_leaves _ _ _ _ _).bind fun ⟨_, _, c⟩ => ih _ c

/-- Reads a block behind its mark, and answers its text with the position behind it. Its lines are
indented further than the block around, which starts at the column `around`. -/
def block? (folds : Bool) (around : Option Nat) (c : Cursor) : Option (List Char × Cursor) := do
  let (chomping, width, c) ← blockHeader? c
  let width := width.map (around.getD 0 + ·)
  let (breaks, widest, c) ← blockIndent? width (c.chars.length + 1) 0 0 c
  let width := width.getD (max widest (around.elim 1 (· + 1)))
  let (r, c) ← blockLines? folds width (c.chars.length + 1) { breaks } c
  return (r.finish chomping, c)

/-- A block is read from behind its mark to the end of its lines. -/
theorem block?_leaves (folds : Bool) (around : Option Nat) (c : Cursor) :
    Leaves Prod.snd c (block? folds around c) := by
  refine (blockHeader?_leaves c).bind fun ⟨_, _, c⟩ => ?_
  refine (blockIndent?_leaves _ _ _ _ c).bind fun ⟨_, _, c⟩ => ?_
  exact (blockLines?_leaves _ _ _ _ c).bind fun _ => leaves_some (Place.refl _)

end Yaml
end FlashVolume

import FlashVolume.Config.Yaml.Cursor
import FlashVolume.Text.Based
/-!
# Anchors, tags and directives of YAML

```text
anchor    = "&" word            alias = "*" word
tag       = "!<" uri ">" | handle uri | "!" [ uri ]
handle    = "!" [ word ] "!"
directive = "%YAML" digits "." digits | "%TAG" ( handle | "!" ) uri | "%" word any text
```

A word is a run of letters, digits, `_` and `-`. A gap follows a tag, and a gap or a mark follows an
anchor. A directive says nothing that a document needs, but it has to be well-formed.
-/

namespace FlashVolume
namespace Yaml

/-- Reads the name of an anchor, and answers it with the position behind it. -/
def anchorName? (c : Cursor) : Option (String × Cursor) :=
  let name := c.run isWordChar
  let c := c.advance name.length
  let ends := c.chars.head?.all fun u =>
    isGap u || u = '?' || u = ':' || u = ',' || u = ']' || u = '}' || u = '%' || u = '@'
      || u.toNat = 0x60
  if name.isEmpty ∨ ¬ ends then none else some (String.ofList name, c)

/-- The name of an anchor is read from where it stands. -/
theorem anchorName?_leaves (c : Cursor) : Leaves Prod.snd c (anchorName? c) :=
  .ite leaves_none (leaves_some (c.advance_behind _))

/-- **The name of an anchor is the word that stands there.** -/
theorem toList_of_anchorName? {c d : Cursor} {name : String} (h : anchorName? c = some (name, d)) :
    name.toList ≠ [] ∧ c.chars = name.toList ++ d.chars ∧
      ∀ u ∈ name.toList, isWordChar u = true := by
  obtain ⟨hsome, ⟨⟩⟩ := Option.ite_none_left_eq_some.1 h
  have hchars : ((c.advance (c.run isWordChar).length).chars) = c.chars.dropWhile isWordChar :=
    c.chars_skip isWordChar
  rw [String.toList_ofList, hchars, Cursor.run]
  refine ⟨fun hnil => hsome (.inl (by simp [Cursor.run, hnil])), ?_, ?_⟩
  · exact List.takeWhile_append_dropWhile.symm
  · exact fun u hu => List.all_eq_true.1 List.all_takeWhile u hu

/-! ## Tags -/

/-- A tag: the handle that says whose it is, and its name. -/
structure Tag where
  handle : String
  name : String
deriving DecidableEq, Repr

/-- Whether a character may stand in a URI. -/
def isUriChar (u : Char) : Bool :=
  isWordChar u || ";/?:@&=+$,.!~*'()[]%".toList.contains u

/-- Reads the octet of an escape, and answers it with what follows. -/
def octet? : List Char → Option (Nat × List Char)
  | '%' :: a :: b :: cs => (Text.valueIn? 16 [a, b]).map (·, cs)
  | _ => none

/-- Reads the character that octets write, and answers it with their number. Its code point is made
of all bits of one octet or of two, so that three or four write none. -/
def uriEscape? (cs : List Char) : Option (Char × Nat) := do
  let (first, rest) ← octet? cs
  if first < 0x80 then return (← Text.charOf? first, 1)
  else if 0xC0 ≤ first ∧ first < 0xE0 then
    let (second, _) ← octet? rest
    if 0x80 ≤ second ∧ second < 0xC0 then return (← Text.charOf? (first * 256 + second), 2)
    else none
  else none

/-- Reads the characters of a URI, and answers them with the position behind it. -/
def uri? : Nat → Cursor → Option (List Char × Cursor)
  | 0, c => some ([], c)
  | fuel + 1, c =>
    match c.chars with
    | [] => some ([], c)
    | u :: _ =>
      if u = '%' then do
        let (v, octets) ← uriEscape? c.chars
        let (uri, c) ← uri? fuel (c.advance (3 * octets))
        return (v :: uri, c)
      else if isUriChar u then do
        let (uri, c) ← uri? fuel c.next
        return (u :: uri, c)
      else some ([], c)

/-- A URI is read from where it stands, escapes included. -/
theorem uri?_leaves (fuel : Nat) (c : Cursor) : Leaves Prod.snd c (uri? fuel c) := by
  induction fuel generalizing c with
  | zero => exact leaves_some (Place.refl c)
  | succ fuel ih =>
    unfold uri?
    split
    case h_1 => exact leaves_some (Place.refl c)
    case h_2 =>
      refine .ite (leaves_bind fun ⟨_, octets⟩ => ?_) (.ite ?_ (leaves_some (Place.refl c)))
      · refine ((ih _).behind (c.advance_behind (3 * octets))).bind fun _ => ?_
        exact leaves_some (Place.refl _)
      · exact ((ih _).behind c.next_behind).bind fun _ => leaves_some (Place.refl _)

/-- Reads a URI that is not empty, and answers it with the position behind it. -/
def someUri? (c : Cursor) : Option (List Char × Cursor) :=
  (uri? c.chars.length c).filter fun (uri, _) => !uri.isEmpty

/-- The same for a URI that is not empty. -/
theorem someUri?_leaves (c : Cursor) : Leaves Prod.snd c (someUri? c) :=
  (uri?_leaves _ c).filter

/-- Reads a word between exclamation marks, of which the second may be missing. -/
def handle? (c : Cursor) : Option (List Char × Cursor) :=
  match c.chars with
  | '!' :: cs =>
    let word := '!' :: cs.takeWhile isWordChar
    let c := c.advance word.length
    if c.chars.head? = some '!' then some (word ++ ['!'], c.next) else some (word, c)
  | _ => none

/-- A handle is read up to its second exclamation mark, if it has one. -/
theorem handle?_leaves (c : Cursor) : Leaves Prod.snd c (handle? c) := by
  unfold handle?
  split
  case h_1 =>
    refine .ite (leaves_some ?_) (leaves_some (c.advance_behind _))
    exact Place.trans (c.advance_behind _) (Cursor.next_behind _)
  case h_2 => exact leaves_none

/-- **A handle is what stands there.** -/
theorem chars_of_handle? {c d : Cursor} {word : List Char} (h : handle? c = some (word, d)) :
    c.chars = word ++ d.chars := by
  unfold handle? at h
  split at h
  case h_2 => cases h
  case h_1 cs hcs =>
    have hword : c.chars = ('!' :: cs.takeWhile isWordChar) ++
        (c.advance ('!' :: cs.takeWhile isWordChar).length).chars := by
      rw [Cursor.chars_advance, hcs, List.length_cons, List.drop_succ_cons,
        Cursor.drop_length_takeWhile, List.cons_append, List.takeWhile_append_dropWhile]
    dsimp only at h
    split at h
    case isTrue hmark =>
      obtain ⟨rest, hrest⟩ := List.head?_eq_some_iff.1 hmark
      cases h
      rw [hrest] at hword
      rw [Cursor.chars_next, hrest, List.append_assoc]
      exact hword
    case isFalse =>
      cases h
      exact hword

/-- Reads a tag, whatever follows it, and answers it with the position behind it. -/
def openTag? (c : Cursor) : Option (Tag × Cursor) :=
  match c.chars with
  | '!' :: '<' :: _ => do
    let (uri, c) ← someUri? (c.advance 2)
    if c.chars.head? = some '>' then some (Tag.mk "" (String.ofList uri), c.next) else none
  | _ => do
    let (handle, c) ← handle? c
    if handle.length ≥ 2 ∧ handle.getLast? = some '!' then
      let (uri, c) ← someUri? c
      some (Tag.mk (String.ofList handle) (String.ofList uri), c)
    else
      let (uri, c) ← uri? c.chars.length c
      let name := handle.tail ++ uri
      if name.isEmpty then some (Tag.mk "" "!", c) else some (Tag.mk "!" (String.ofList name), c)

/-- A tag is read from its exclamation mark on. -/
theorem openTag?_leaves (c : Cursor) : Leaves Prod.snd c (openTag? c) := by
  unfold openTag?
  split
  case h_1 =>
    refine ((someUri?_leaves _).behind (c.advance_behind 2)).bind fun ⟨_, c⟩ => ?_
    exact .ite (leaves_some c.next_behind) leaves_none
  case h_2 =>
    refine (handle?_leaves c).bind fun ⟨_, c⟩ => .ite ?_ ?_
    · exact (someUri?_leaves c).bind fun _ => leaves_some (Place.refl _)
    · refine (uri?_leaves _ c).bind fun ⟨_, c⟩ => ?_
      exact .ite (leaves_some (Place.refl c)) (leaves_some (Place.refl c))

/-- Reads a tag, and answers it with the position behind it, where a gap stands. -/
def tag? (c : Cursor) : Option (Tag × Cursor) :=
  (openTag? c).filter fun (_, c) => atGap c.chars

/-- The same for a tag that a gap follows. -/
theorem tag?_leaves (c : Cursor) : Leaves Prod.snd c (tag? c) :=
  (openTag?_leaves c).filter

/-! ## Directives -/

/-- Reads a number of a version, and answers the position behind it. -/
def versionNumber? (c : Cursor) : Option Cursor :=
  let digits := (c.run Char.isDigit).length
  if 1 ≤ digits ∧ digits ≤ 9 then some (c.advance digits) else none

/-- The number of a version is read from where it stands. -/
theorem versionNumber?_leaves (c : Cursor) : Leaves id c (versionNumber? c) :=
  .ite (leaves_some (c.advance_behind _)) leaves_none

/-- Reads what follows the name of a directive on its line, and answers the position behind it. -/
def directiveValue? (name : List Char) (c : Cursor) : Option Cursor := do
  if name = ['Y', 'A', 'M', 'L'] then
    let c ← versionNumber? (c.skip isBlank)
    if c.chars.head? = some '.' then versionNumber? c.next else none
  else if name = ['T', 'A', 'G'] then
    let (handle, c) ← handle? (c.skip isBlank)
    if handle.length ≥ 2 ∧ handle.getLast? ≠ some '!' then none
    else
      let (_, c) ← someUri? (c.skip isBlank)
      if atGap c.chars then some c else none
  else return c.skipLine

/-- What a directive says is read from behind its name. -/
theorem directiveValue?_leaves (name : List Char) (c : Cursor) :
    Leaves id c (directiveValue? name c) := by
  refine .ite ?_ (.ite ?_ (leaves_some (c.skip_behind _)))
  · refine ((versionNumber?_leaves _).behind (c.skip_behind isBlank)).bind fun c => ?_
    exact .ite ((versionNumber?_leaves _).behind c.next_behind) leaves_none
  · refine ((handle?_leaves _).behind (c.skip_behind isBlank)).bind fun ⟨_, c⟩ => ?_
    refine .ite leaves_none ?_
    refine ((someUri?_leaves _).behind (c.skip_behind isBlank)).bind fun ⟨_, c⟩ => ?_
    exact .ite (leaves_some (Place.refl c)) leaves_none

/-- Reads a directive behind its percent sign, and answers the position of the next line. -/
def directive? (c : Cursor) : Option Cursor := do
  let name := c.run isWordChar
  let c := c.advance name.length
  if name.isEmpty ∨ ¬ atGap c.chars then none
  else
    let c := (← directiveValue? name c).skipComment
    if c.atBreak then some c.skipBreak else none

/-- A directive is read up to the next line. -/
theorem directive?_leaves (c : Cursor) : Leaves id c (directive? c) := by
  refine .ite leaves_none ?_
  refine ((directiveValue?_leaves _ _).behind (c.advance_behind _)).bind fun c => ?_
  refine .ite (leaves_some ?_) leaves_none
  exact Place.trans c.skipComment_behind (Cursor.skipBreak_behind _)

end Yaml
end FlashVolume

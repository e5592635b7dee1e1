import FlashVolume.Config.Yaml.Property
import FlashVolume.Config.Yaml.Scalar
/-!
# Tokens of YAML

A text is split into tokens. The indentation of lines opens and closes blocks, which are tokens too:
`sequence` and `mapping` open one, and `close` closes it. Brackets open lists and mappings where
indentation does not count.

What comes before a `:` is a key, and a token says so in front of it. Where a key can start, its
place is remembered until it is known whether a `:` follows. It has to follow on the same line
within 1024 characters.
-/

namespace FlashVolume
namespace Yaml

/-- The parts of a text. -/
inductive Token where
  | directive
  /-- The mark that starts a document. -/
  | start
  /-- The mark that ends a document. -/
  | stop
  /-- The end of the text. -/
  | finish
  | sequence
  | mapping
  | close
  /-- A dash in front of an item. -/
  | item
  | key
  | value
  | openList
  | closeList
  | openMap
  | closeMap
  | comma
  | alias (name : String)
  | anchor (name : String)
  | tag (tag : Tag)
  | scalar (isPlain : Bool) (text : String)
deriving DecidableEq, Repr

/-- A place where a key may have started. -/
structure KeyPlace where
  /-- How many tokens there were. -/
  tokens : Nat
  cursor : Cursor
  /-- Whether there must be a key. -/
  isRequired : Bool

/-- Whether a key can no longer start at a place. -/
def KeyPlace.isStale (k : KeyPlace) (c : Cursor) : Bool :=
  k.cursor.line < c.line || k.cursor.index + 1024 < c.index

/-- A lexer between two tokens. -/
structure Lexer where
  cursor : Cursor
  /-- The tokens so far, the last one first. -/
  tokens : List Token := []
  /-- The columns of the blocks that are open, the innermost first. -/
  blocks : List Nat := []
  /-- Where a key may have started. -/
  key : Option KeyPlace := none
  /-- Where a key may have started around each pair of brackets, the innermost first. -/
  outerKeys : List (Option KeyPlace) := []
  /-- Whether a key may start here. -/
  allowsKey : Bool := true
  /-- The position behind the last scalar in quotes. -/
  quotedEnd : Nat := 0

namespace Lexer

/-- Whether the position is between brackets. -/
def inFlow (l : Lexer) : Bool :=
  !l.outerKeys.isEmpty

/-- Adds a token. -/
def push (l : Lexer) (t : Token) : Lexer :=
  { l with tokens := t :: l.tokens }

/-- Adds a token that takes some characters. -/
def take (l : Lexer) (t : Token) (length : Nat) : Lexer :=
  { l.push t with cursor := l.cursor.advance length }

/-- Puts a token behind the first `count` ones. -/
def insert (l : Lexer) (count : Nat) (t : Token) : Lexer :=
  { l with tokens := l.tokens.insertIdx (l.tokens.length - count) t }

/-- What is put in behind some tokens stands between them and the others. -/
theorem insertIdx_append (front back : List Token) (t : Token) :
    (front ++ back).insertIdx front.length t = front ++ t :: back := by
  induction front with
  | nil => rfl
  | cons u front ih => simpa using ih

/-- **A token that is put in moves none of those in front of it.** -/
theorem tokens_insert {l : Lexer} {front back : List Token} (h : l.tokens.reverse = front ++ back)
    (t : Token) : (l.insert front.length t).tokens.reverse = front ++ t :: back := by
  have htokens : l.tokens = back.reverse ++ front.reverse := by
    rw [← List.reverse_append, ← h, List.reverse_reverse]
  have hplace : l.tokens.length - front.length = back.reverse.length := by
    rw [htokens, List.length_append, List.length_reverse, List.length_reverse, Nat.add_sub_cancel]
  simp only [insert]
  rw [hplace, htokens, insertIdx_append]
  simp

/-- Allows a key to start here, or not. -/
def allow (l : Lexer) (allowsKey : Bool) : Lexer :=
  { l with allowsKey }

/-! ## Blocks -/

/-- Whether a block that starts at a column is inside all that are open. -/
def isDeeper (l : Lexer) (column : Nat) : Bool :=
  !l.inFlow && l.blocks.head?.all (· < column)

/-- Of the blocks that are open, each starts behind the one around it. -/
def IsNested (l : Lexer) : Prop :=
  l.blocks.Pairwise (· > ·)

/-- A deeper block can be opened inside the others. -/
theorem IsNested.cons {l : Lexer} {column : Nat} (h : l.IsNested)
    (hdeeper : l.isDeeper column = true) : (column :: l.blocks).Pairwise (· > ·) := by
  refine List.pairwise_cons.2 ⟨fun block hblock => ?_, h⟩
  unfold IsNested at h
  obtain ⟨-, hhead⟩ := Bool.and_eq_true_iff.1 hdeeper
  cases hblocks : l.blocks with
  | nil => simp [hblocks] at hblock
  | cons inner outer =>
    rw [hblocks] at h hhead hblock
    have hinner : inner < column := by simpa using hhead
    rcases List.mem_cons.1 hblock with rfl | houter
    · exact hinner
    · exact Nat.lt_trans (List.rel_of_pairwise_cons h houter) hinner

/-- Opens a block at the position, if it is indented. -/
def openBlock (l : Lexer) (t : Token) : Lexer :=
  if l.isDeeper l.cursor.column then { l.push t with blocks := l.cursor.column :: l.blocks } else l

/-- Opening a block keeps the blocks nested. -/
theorem IsNested.openBlock {l : Lexer} (h : l.IsNested) (t : Token) : (l.openBlock t).IsNested := by
  unfold Lexer.openBlock
  split
  case isTrue hdeeper => exact h.cons hdeeper
  case isFalse => exact h

/-- Closes the blocks that start at a column or behind it. -/
def closeBlocks (l : Lexer) (column : Nat) : Lexer :=
  if l.inFlow then l
  else
    let closed := (l.blocks.takeWhile (column ≤ ·)).length
    { l with
      tokens := List.replicate closed .close ++ l.tokens
      blocks := l.blocks.drop closed }

/-- Closing blocks keeps those that stay nested. -/
theorem IsNested.closeBlocks {l : Lexer} (h : l.IsNested) (column : Nat) :
    (l.closeBlocks column).IsNested := by
  unfold Lexer.closeBlocks
  split
  · exact h
  · exact h.drop

/-- A lexer stands behind another if it has read on from there, and its blocks are still nested. -/
instance : Place Lexer where
  IsBehind l m := Place.IsBehind l.cursor m.cursor ∧ (l.IsNested → m.IsNested)
  refl l := ⟨Place.refl l.cursor, id⟩
  trans hlm hmn := ⟨Place.trans hlm.1 hmn.1, hmn.2 ∘ hlm.2⟩

/-- A lexer that has read on with the same blocks stands behind. -/
theorem behind_of_blocks {l m : Lexer} (hcursor : Place.IsBehind l.cursor m.cursor)
    (hblocks : m.blocks = l.blocks) : Place.IsBehind l m := by
  refine ⟨hcursor, fun h => ?_⟩
  rw [IsNested, hblocks]
  exact h

/-- A lexer goes on where the reader of a part of the text has stopped. -/
theorem leaves_of_cursor {α : Type} {l : Lexer} {left : α → Cursor} {read : Option α}
    {next : α → Lexer} (h : Leaves left l.cursor read) (hcursor : ∀ a, (next a).cursor = left a)
    (hblocks : ∀ a, (next a).blocks = l.blocks) :
    Leaves id l (read.bind fun a => some (next a)) := by
  intro m hm
  obtain ⟨a, ha, ⟨⟩⟩ := Option.bind_eq_some_iff.1 hm
  exact behind_of_blocks (hcursor a ▸ h a ha) (hblocks a)

/-- Allowing a key reads nothing. -/
theorem allow_behind (l : Lexer) (allowsKey : Bool) : Place.IsBehind l (l.allow allowsKey) :=
  behind_of_blocks (Place.refl _) rfl

/-- Adding a token reads nothing. -/
theorem push_behind (l : Lexer) (t : Token) : Place.IsBehind l (l.push t) :=
  behind_of_blocks (Place.refl _) rfl

/-- A token takes its characters. -/
theorem take_behind (l : Lexer) (t : Token) (length : Nat) : Place.IsBehind l (l.take t length) :=
  behind_of_blocks (l.cursor.advance_behind length) rfl

/-- Opening a block reads nothing. -/
theorem openBlock_behind (l : Lexer) (t : Token) : Place.IsBehind l (l.openBlock t) := by
  refine ⟨?_, fun h => h.openBlock t⟩
  unfold Lexer.openBlock
  split <;> exact Place.refl l.cursor

/-- Closing blocks reads nothing. -/
theorem closeBlocks_behind (l : Lexer) (column : Nat) :
    Place.IsBehind l (l.closeBlocks column) := by
  refine ⟨?_, fun h => h.closeBlocks column⟩
  unfold Lexer.closeBlocks
  split <;> exact Place.refl l.cursor

/-- **The blocks that stay open start before the column.** -/
theorem lt_of_mem_closeBlocks {l : Lexer} (h : l.IsNested) (hflow : l.inFlow = false)
    {column block : Nat} (hblock : block ∈ (l.closeBlocks column).blocks) : block < column := by
  unfold IsNested at h
  simp only [Lexer.closeBlocks, hflow, Bool.false_eq_true, if_false,
    Cursor.drop_length_takeWhile] at hblock
  generalize l.blocks = blocks at h hblock
  induction blocks with
  | nil => cases hblock
  | cons inner outer ih =>
    rw [List.dropWhile_cons] at hblock
    split at hblock
    case isTrue => exact ih h.of_cons hblock
    case isFalse hopen =>
      have hinner : inner < column := by simpa using hopen
      rcases List.mem_cons.1 hblock with rfl | houter
      · exact hinner
      · exact Nat.lt_trans (List.rel_of_pairwise_cons h houter) hinner

/-- **As many blocks are closed as are no longer open.** -/
theorem tokens_closeBlocks (l : Lexer) (column : Nat) :
    (l.closeBlocks column).tokens =
      List.replicate (l.blocks.length - (l.closeBlocks column).blocks.length) .close ++
        l.tokens := by
  unfold Lexer.closeBlocks
  split
  · simp
  · have hclosed := (List.takeWhile_prefix (column ≤ ·) (l := l.blocks)).length_le
    dsimp only
    rw [List.length_drop, Nat.sub_sub_self hclosed]

/-! ## Keys -/

/-- Forgets a place where a key can no longer start; `none` if there must be one. -/
def expire? (c : Cursor) (key : Option KeyPlace) : Option (Option KeyPlace) :=
  match key with
  | none => some none
  | some k => if ¬ k.isStale c then some key else if k.isRequired then none else some none

/-- Forgets all places where a key can no longer start. -/
def expireKeys? (l : Lexer) : Option Lexer := do
  return { l with
    key := ← expire? l.cursor l.key
    outerKeys := ← l.outerKeys.mapM (expire? l.cursor) }

/-- Forgetting keys that are too far away reads nothing. -/
theorem expireKeys?_leaves (l : Lexer) : Leaves id l l.expireKeys? :=
  leaves_bind fun _ => leaves_bind fun _ => leaves_some (behind_of_blocks (Place.refl _) rfl)

/-- Forgets where a key may have started; `none` if there must be one. -/
def dropKey? (l : Lexer) : Option Lexer :=
  if l.key.any (·.isRequired) then none else some { l with key := none }

/-- Forgetting a key reads nothing. -/
theorem dropKey?_leaves (l : Lexer) : Leaves id l l.dropKey? :=
  .ite leaves_none (leaves_some (behind_of_blocks (Place.refl _) rfl))

/-- Remembers that a key may start here. -/
def markKey? (l : Lexer) : Option Lexer :=
  if ¬ l.allowsKey then some l
  else do
    let isRequired := l.inFlow && l.blocks.head? = some l.cursor.column
    return { ← l.dropKey? with key := some ⟨l.tokens.length, l.cursor, isRequired⟩ }

/-- Remembering a key reads nothing. -/
theorem markKey?_leaves (l : Lexer) : Leaves id l l.markKey? := by
  refine .ite (leaves_some (Place.refl l)) ((dropKey?_leaves l).bind fun l => leaves_some ?_)
  exact behind_of_blocks (Place.refl _) rfl

/-! ## Steps -/

/-- Skips what stands between tokens. A line break lets a key start, and where one can start a tab
is no blank. -/
def skipIdle : Nat → Lexer → Lexer
  | 0, l => l
  | fuel + 1, l =>
    match l.cursor.chars with
    | [] => l
    | u :: _ =>
      if u = ' ' ∨ u = '\t' ∧ (l.inFlow ∨ ¬ l.allowsKey) then
        skipIdle fuel { l with cursor := l.cursor.next }
      else if isBreak u then
        let allowsKey := l.allowsKey || !l.inFlow
        skipIdle fuel { l with cursor := l.cursor.skipBreak, allowsKey }
      else if u = '#' then skipIdle fuel { l with cursor := l.cursor.skipLine }
      else l

/-- What stands between tokens is passed over. -/
theorem skipIdle_behind (fuel : Nat) (l : Lexer) : Place.IsBehind l (skipIdle fuel l) := by
  induction fuel generalizing l with
  | zero => exact Place.refl l
  | succ fuel ih =>
    unfold skipIdle
    split
    case h_1 => exact Place.refl l
    case h_2 =>
      split
      · refine Place.trans ?_ (ih _)
        exact behind_of_blocks l.cursor.next_behind rfl
      split
      · refine Place.trans ?_ (ih _)
        exact behind_of_blocks l.cursor.skipBreak_behind rfl
      split
      · refine Place.trans ?_ (ih _)
        exact behind_of_blocks (l.cursor.skip_behind _) rfl
      · exact Place.refl l

/-- **Between tokens there is none.** -/
theorem tokens_skipIdle (fuel : Nat) (l : Lexer) : (skipIdle fuel l).tokens = l.tokens := by
  induction fuel generalizing l with
  | zero => rfl
  | succ fuel ih =>
    unfold skipIdle
    split
    case h_1 => rfl
    case h_2 =>
      split
      · exact ih _
      split
      · exact ih _
      split
      · exact ih _
      · rfl

/-- Closes all blocks in front of a document mark, a directive or the end. -/
def endBlocks? (l : Lexer) : Option Lexer :=
  return (← (l.closeBlocks 0).dropKey?).allow false

/-- Closing all blocks reads nothing. -/
theorem endBlocks?_leaves (l : Lexer) : Leaves id l l.endBlocks? :=
  ((dropKey?_leaves _).behind (l.closeBlocks_behind 0)).bind fun l =>
    leaves_some (l.allow_behind false)

/-- Opens a pair of brackets. -/
def openFlow? (l : Lexer) (t : Token) : Option Lexer := do
  let l ← l.markKey?
  if l.outerKeys.length ≥ 255 then none
  else return { (l.allow true).take t 1 with key := none, outerKeys := l.key :: l.outerKeys }

/-- An opening bracket is read as one token. -/
theorem openFlow?_leaves (l : Lexer) (t : Token) : Leaves id l (l.openFlow? t) :=
  (markKey?_leaves l).bind fun l =>
    .ite leaves_none (leaves_some (behind_of_blocks (l.cursor.advance_behind 1) rfl))

/-- Closes a pair of brackets. -/
def closeFlow? (l : Lexer) (t : Token) : Option Lexer := do
  let l := ((← l.dropKey?).allow false).take t 1
  match l.outerKeys with
  | [] => return l
  | key :: outerKeys => return { l with key, outerKeys }

/-- A closing bracket is read as one token. -/
theorem closeFlow?_leaves (l : Lexer) (t : Token) : Leaves id l (l.closeFlow? t) := by
  refine (dropKey?_leaves l).bind fun l => ?_
  have hnext : Place.IsBehind l ((l.allow false).take t 1) :=
    behind_of_blocks (l.cursor.advance_behind 1) rfl
  dsimp only
  split
  · exact leaves_some hnext
  · exact leaves_some (behind_of_blocks (l.cursor.advance_behind 1) rfl)

/-- Reads a comma. -/
def comma? (l : Lexer) : Option Lexer :=
  return ((← l.dropKey?).allow true).take .comma 1

/-- A comma is read as one token. -/
theorem comma?_leaves (l : Lexer) : Leaves id l l.comma? :=
  (dropKey?_leaves l).bind fun l =>
    leaves_some (Place.trans (l.allow_behind true) (take_behind _ .comma 1))

/-- Reads the dash of an item. -/
def item? (l : Lexer) : Option Lexer :=
  if l.inFlow ∨ ¬ l.allowsKey then none
  else return ((← (l.openBlock .sequence).dropKey?).allow true).take .item 1

/-- A dash is read as one token, and may open a block. -/
theorem item?_leaves (l : Lexer) : Leaves id l l.item? :=
  .ite leaves_none (((dropKey?_leaves _).behind (l.openBlock_behind .sequence)).bind fun l =>
    leaves_some (Place.trans (l.allow_behind true) (take_behind _ .item 1)))

/-- Reads the question mark of a key. -/
def key? (l : Lexer) : Option Lexer :=
  if l.inFlow then return ((← l.dropKey?).allow false).take .key 1
  else if ¬ l.allowsKey then none
  else return ((← (l.openBlock .mapping).dropKey?).allow true).take .key 1

/-- A question mark is read as one token, and may open a block. -/
theorem key?_leaves (l : Lexer) : Leaves id l l.key? := by
  refine .ite ?_ (.ite leaves_none ?_)
  · exact (dropKey?_leaves l).bind fun l =>
      leaves_some (Place.trans (l.allow_behind false) (take_behind _ .key 1))
  · exact ((dropKey?_leaves _).behind (l.openBlock_behind .mapping)).bind fun l =>
      leaves_some (Place.trans (l.allow_behind true) (take_behind _ .key 1))

/-- Reads the colon of a value. If a key may have started, it has, and a block may start with it. -/
def value? (l : Lexer) : Option Lexer :=
  match l.key with
  | some k =>
    let deeper := l.isDeeper k.cursor.column
    let l := l.insert k.tokens .key
    let l := if deeper then
        { l.insert k.tokens .mapping with blocks := k.cursor.column :: l.blocks }
      else l
    some ({ l.allow false with key := none }.take .value 1)
  | none =>
    if l.inFlow then some ((l.allow false).take .value 1)
    else if ¬ l.allowsKey then none
    else some (((l.openBlock .mapping).allow true).take .value 1)

/-- A colon is read as one token, and may open a block at the key in front of it. -/
theorem value?_leaves (l : Lexer) : Leaves id l l.value? := by
  unfold value?
  split
  case h_1 k _ =>
    refine leaves_some ⟨?_, fun h => ?_⟩
    · split
      · exact l.cursor.advance_behind 1
      · exact l.cursor.advance_behind 1
    -- The column of the key becomes the innermost block only where it is deeper than the others.
    · split
      case isTrue hdeeper => exact h.cons hdeeper
      case isFalse => exact h
  case h_2 =>
    refine .ite (leaves_some ?_) (.ite leaves_none (leaves_some ?_))
    · exact Place.trans (l.allow_behind false) (take_behind _ .value 1)
    · exact Place.trans (l.openBlock_behind .mapping)
        (Place.trans (allow_behind _ true) (take_behind _ .value 1))

/-- Reads what a key may start with. -/
def content? (l : Lexer) : Option Lexer := do
  let l := (← l.markKey?).allow false
  let c := l.cursor
  match c.chars with
  | '*' :: _ =>
    let (name, cursor) ← anchorName? c.next
    return { l.push (.alias name) with cursor }
  | '&' :: _ =>
    let (name, cursor) ← anchorName? c.next
    return { l.push (.anchor name) with cursor }
  | '!' :: _ =>
    let (tag, cursor) ← tag? c
    return { l.push (.tag tag) with cursor }
  | u :: _ =>
    if u = '\'' ∨ u = '"' then
      let (text, cursor) ← quoted? u c.chars.length [] c.next
      return { l.push (.scalar false (String.ofList text)) with
        cursor
        quotedEnd := cursor.index }
    else if ¬ l.inFlow ∧ (u = '|' ∨ u = '>') then
      let (text, cursor) ← block? (u = '>') l.blocks.head? c.next
      return { (l.push (.scalar false (String.ofList text))).allow true with cursor }
    else
      let least := l.blocks.head?.elim 0 (· + 1)
      let (text, isBroken, cursor) ← plain? l.inFlow least (c.chars.length + 1) [] {} c
      return { (l.push (.scalar true (String.ofList text))).allow isBroken with cursor }
  | [] => none

/-- What a key may start with is read as one token. -/
theorem content?_leaves (l : Lexer) : Leaves id l l.content? := by
  refine (markKey?_leaves l).bind fun l => .behind ?_ (l.allow_behind false)
  have hname : Leaves Prod.snd l.cursor (anchorName? l.cursor.next) :=
    (anchorName?_leaves _).behind l.cursor.next_behind
  dsimp only
  split
  case h_1 => exact leaves_of_cursor hname (fun _ => rfl) fun _ => rfl
  case h_2 => exact leaves_of_cursor hname (fun _ => rfl) fun _ => rfl
  case h_3 => exact leaves_of_cursor (tag?_leaves _) (fun _ => rfl) fun _ => rfl
  case h_4 =>
    refine .ite ?_ (.ite ?_ ?_)
    · exact leaves_of_cursor ((quoted?_leaves _ _ _ _).behind l.cursor.next_behind) (fun _ => rfl)
        fun _ => rfl
    · exact leaves_of_cursor ((block?_leaves _ _ _).behind l.cursor.next_behind) (fun _ => rfl)
        fun _ => rfl
    · exact leaves_of_cursor (plain?_leaves _ _ _ _ _ _) (fun _ => rfl) fun _ => rfl
  case h_5 => exact leaves_none

/-- Reads the token that stands at the position. -/
def token? (l : Lexer) : Option Lexer :=
  match l.cursor.chars with
  | [] => return (← l.endBlocks?).push .finish
  | u :: cs =>
    if u = '%' ∧ l.cursor.column = 0 then
      return { (← l.endBlocks?).push .directive with cursor := ← directive? l.cursor.next }
    else if l.cursor.atMark Cursor.startMark then return (← l.endBlocks?).take .start 3
    else if l.cursor.atMark Cursor.endMark then return (← l.endBlocks?).take .stop 3
    else if u = '[' then l.openFlow? .openList
    else if u = '{' then l.openFlow? .openMap
    else if u = ']' then l.closeFlow? .closeList
    else if u = '}' then l.closeFlow? .closeMap
    else if u = ',' then l.comma?
    else if u = '-' ∧ atGap cs then l.item?
    else if u = '?' ∧ atGap cs then l.key?
    else if u = ':' ∧ (atGap cs ∨
        l.inFlow ∧ (cs.head?.any isFlow ∨ l.cursor.index = l.quotedEnd)) then l.value?
    else if u = '%' ∨ u = '@' ∨ u.toNat = 0x60 then none
    else l.content?

/-- **A token is read from where the lexer stands,** and the blocks that are open stay nested. -/
theorem token?_leaves (l : Lexer) : Leaves id l l.token? := by
  have hends := endBlocks?_leaves l
  unfold token?
  split
  case h_1 => exact hends.bind fun l => leaves_some (l.push_behind .finish)
  case h_2 u cs _ =>
    refine .ite ?_ (.ite ?_ (.ite ?_ ?_))
    · intro m hm
      obtain ⟨ended, hended, hm⟩ := Option.bind_eq_some_iff.1 hm
      obtain ⟨cursor, hcursor, ⟨⟩⟩ := Option.bind_eq_some_iff.1 hm
      have hdirective := (directive?_leaves _).behind l.cursor.next_behind
      exact ⟨hdirective cursor hcursor, (hends ended hended).2⟩
    · exact hends.bind fun l => leaves_some (l.take_behind .start 3)
    · exact hends.bind fun l => leaves_some (l.take_behind .stop 3)
    · refine .ite (openFlow?_leaves l _) (.ite (openFlow?_leaves l _) (.ite (closeFlow?_leaves l _)
        (.ite (closeFlow?_leaves l _) (.ite (comma?_leaves l) (.ite (item?_leaves l)
          (.ite (key?_leaves l) (.ite (value?_leaves l)
            (.ite leaves_none (content?_leaves l)))))))))

/-- Reads the tokens up to the end of the text. -/
def tokens? : Nat → Lexer → Option (List Token)
  | 0, _ => none
  | fuel + 1, l => do
    let l := skipIdle l.cursor.chars.length l
    let l ← l.expireKeys?
    let l ← (l.closeBlocks (l.cursor.column + 1)).token?
    if l.tokens.head? = some .finish then return l.tokens.reverse else tokens? fuel l

/-- **The end of the text is the last token.** -/
theorem getLast?_of_tokens? {fuel : Nat} {l : Lexer} {tokens : List Token}
    (h : tokens? fuel l = some tokens) : tokens.getLast? = some .finish := by
  induction fuel generalizing l with
  | zero => cases h
  | succ fuel ih =>
    obtain ⟨_, _, h⟩ := Option.bind_eq_some_iff.1 h
    obtain ⟨l, _, h⟩ := Option.bind_eq_some_iff.1 h
    split at h
    case isTrue hfinish =>
      cases h
      rw [List.getLast?_reverse, hfinish]
    case isFalse => exact ih h

end Lexer

/-- The tokens of a text. It ends at the first NUL. -/
def Token.ofText? (text : String) : Option (List Token) :=
  let chars := text.toList.takeWhile (·.toNat ≠ 0)
  Lexer.tokens? (chars.length + 1) { cursor := { chars } }

end Yaml
end FlashVolume

import FlashVolume.Text.Based
import FlashVolume.Text.Place
/-!
# Texts and keys of TOML

```text
basic   = a text in double quotes, with the escapes \b \t \n \f \r \" \\ \uXXXX \UXXXXXXXX
literal = a text in single quotes, without escapes
lines   = either of the two between three quotes instead of one; it may have line breaks
key     = bare | basic | literal         bare is a run of letters, digits, "_" and "-"
names   = key ( blank "." blank key )*
```

A text between three quotes does not hold the line break right after them, and may end in up to
two quotes of its own. In a basic one, a backslash at the end of a line drops the line break and
the blanks and line breaks behind it.
-/

namespace FlashVolume
namespace Toml

/-- A space or a tab. -/
def isSpace (c : Char) : Bool :=
  c = ' ' || c = '\t'

/-- What may stand in a comment. -/
def isPrintable (c : Char) : Bool :=
  c = '\t' || 0x20 ≤ c.toNat

/-- What may stand between quotes. -/
def isQuotable (c : Char) : Bool :=
  isPrintable c && c.toNat ≠ 0x7F

/-- What a bare key consists of. -/
def isBare (c : Char) : Bool :=
  c.isAlphanum || c = '_' || c = '-'

/-- Reads an escape behind its backslash, and answers its character with what follows. -/
def escape? : List Char → Option (Char × List Char)
  | 'u' :: a :: b :: c :: d :: cs => (Text.codePoint? [a, b, c, d]).map (·, cs)
  | 'U' :: a :: b :: c :: d :: e :: f :: g :: h :: cs =>
    (Text.codePoint? [a, b, c, d, e, f, g, h]).map (·, cs)
  | 'b' :: cs => some ('\x08', cs)
  | 't' :: cs => some ('\t', cs)
  | 'n' :: cs => some ('\n', cs)
  | 'f' :: cs => some ('\x0c', cs)
  | 'r' :: cs => some ('\r', cs)
  | '"' :: cs => some ('"', cs)
  | '\\' :: cs => some ('\\', cs)
  | _ => none

/-- What follows an escape stands behind it. -/
theorem escape?_leaves (cs : List Char) : Leaves Prod.snd cs (escape? cs) := by
  unfold escape?
  split
  case h_1 a b c d cs => exact leaves_map fun _ => List.suffix_append ['u', a, b, c, d] cs
  case h_2 a b c d e f g h cs =>
    exact leaves_map fun _ => List.suffix_append ['U', a, b, c, d, e, f, g, h] cs
  case h_10 => exact leaves_none
  all_goals exact leaves_some (List.suffix_cons ..)

/-- What follows a backslash at the end of a line, on the next line that is not blank. -/
def joined? (cs : List Char) : Option (List Char) :=
  match cs.dropWhile isSpace with
  | '\n' :: rest => some (rest.dropWhile fun c => isSpace c || c = '\n')
  | _ => none

/-- What follows a joined line is the next one that is not blank. -/
theorem joined?_leaves (cs : List Char) : Leaves id cs (joined? cs) := by
  refine .behind ?_ (List.dropWhile_suffix isSpace)
  unfold joined?
  split
  case h_1 rest heq =>
    exact heq ▸ leaves_some ((List.dropWhile_suffix _).trans (List.suffix_cons '\n' rest))
  case h_2 => exact leaves_none

/-- Reads a text of one line up to its closing quote, and answers it with what follows. -/
def line? (quote : Char) : Nat → List Char → Option (List Char × List Char)
  | fuel + 1, c :: cs =>
    if c = quote then some ([], cs)
    else if c = '\\' ∧ quote = '"' then do
      let (u, rest) ← escape? cs
      let (text, rest) ← line? quote fuel rest
      some (u :: text, rest)
    else if isQuotable c then do
      let (text, rest) ← line? quote fuel cs
      some (c :: text, rest)
    else none
  | _, _ => none

/-- What follows a text of one line stands behind its closing quote. -/
theorem line?_leaves (quote : Char) (fuel : Nat) (cs : List Char) :
    Leaves Prod.snd cs (line? quote fuel cs) := by
  induction fuel generalizing cs with
  | zero => exact leaves_none
  | succ fuel ih =>
    cases cs with
    | nil => exact leaves_none
    | cons c cs =>
      refine .behind (t := cs) (.ite (leaves_some (List.suffix_refl cs)) (.ite ?_ (.ite ?_ ?_)))
        (List.suffix_cons c cs)
      · refine (escape?_leaves cs).bind fun ⟨_, rest⟩ => ?_
        exact (ih rest).bind fun _ => leaves_some (List.suffix_refl _)
      · exact (ih cs).bind fun _ => leaves_some (List.suffix_refl _)
      · exact leaves_none

/-- **In single quotes a text stands for itself.** -/
theorem line?_literal {text : List Char} (h : ∀ c ∈ text, c ≠ '\'' ∧ isQuotable c = true)
    (rest : List Char) {fuel : Nat} (hfuel : text.length < fuel) :
    line? '\'' fuel (text ++ '\'' :: rest) = some (text, rest) := by
  induction text generalizing fuel with
  | nil =>
    obtain ⟨fuel, rfl⟩ := Nat.exists_eq_succ_of_ne_zero (Nat.ne_of_gt hfuel)
    simp [line?]
  | cons c text ih =>
    obtain ⟨fuel, rfl⟩ := Nat.exists_eq_succ_of_ne_zero (Nat.ne_of_gt (Nat.zero_lt_of_lt hfuel))
    obtain ⟨hquote, hquotable⟩ := h c (by simp)
    have hread := ih (fun d hd => h d (by simp [hd])) (by simpa using hfuel)
    simp [line?, hquote, hquotable, hread]

/-- The quotes that a text ends in before its three closing quotes, with what follows them, if the
text closes here. -/
def closing? (quote : Char) (cs : List Char) : Option (List Char × List Char) :=
  let quotes := (cs.take 5).takeWhile (· = quote)
  if quotes.length < 3 then none else some (quotes.drop 3, cs.drop quotes.length)

/-- What follows the closing quotes stands behind all of them. -/
theorem closing?_leaves (quote : Char) (cs : List Char) :
    Leaves Prod.snd cs (closing? quote cs) :=
  .ite leaves_none (leaves_some (List.drop_suffix _ cs))

/-- **A text ends in two quotes of its own at most.** -/
theorem length_of_closing? {quote : Char} {cs text rest : List Char}
    (h : closing? quote cs = some (text, rest)) : text.length ≤ 2 := by
  obtain ⟨_, h⟩ := Option.ite_none_left_eq_some.1 h
  cases h
  have hquotes := (List.takeWhile_prefix (· = quote) (l := cs.take 5)).length_le
  have htake := List.length_take_le 5 cs
  rw [List.length_drop]
  omega

/-- Reads a text of many lines up to its closing quotes, and answers it with what follows. -/
def lines? (quote : Char) : Nat → List Char → Option (List Char × List Char)
  | fuel + 1, c :: cs =>
    match closing? quote (c :: cs), (if c = '\\' ∧ quote = '"' then joined? cs else none) with
    | some (text, rest), _ => some (text, rest)
    | none, some rest => lines? quote fuel rest
    | none, none =>
      if c = '\\' ∧ quote = '"' then do
        let (u, rest) ← escape? cs
        let (text, rest) ← lines? quote fuel rest
        some (u :: text, rest)
      else if isQuotable c ∨ c = '\n' then do
        let (text, rest) ← lines? quote fuel cs
        some (c :: text, rest)
      else none
  | _, _ => none

/-- What follows a text of many lines stands behind its closing quotes. -/
theorem lines?_leaves (quote : Char) (fuel : Nat) (cs : List Char) :
    Leaves Prod.snd cs (lines? quote fuel cs) := by
  induction fuel generalizing cs with
  | zero => exact leaves_none
  | succ fuel ih =>
    cases cs with
    | nil => exact leaves_none
    | cons c cs =>
      unfold lines?
      split
      case h_1 heq => exact leaves_some (closing?_leaves quote (c :: cs) _ heq)
      case h_2 rest _ heq =>
        obtain ⟨-, hjoined⟩ := Option.ite_none_right_eq_some.1 heq
        exact (ih rest).behind ((joined?_leaves cs rest hjoined).trans (List.suffix_cons c cs))
      case h_3 =>
        refine .behind (t := cs) (.ite ?_ (.ite ?_ leaves_none)) (List.suffix_cons c cs)
        · refine (escape?_leaves cs).bind fun ⟨_, rest⟩ => ?_
          exact (ih rest).bind fun _ => leaves_some (List.suffix_refl _)
        · exact (ih cs).bind fun _ => leaves_some (List.suffix_refl _)

/-- Reads a text behind its first quote, and answers it with what follows. -/
def quoted? (quote : Char) (cs : List Char) : Option (String × List Char) :=
  let text :=
    if [quote, quote].isPrefixOf cs then
      let cs := cs.drop 2
      lines? quote cs.length (if cs.head? = some '\n' then cs.tail else cs)
    else line? quote cs.length cs
  text.map fun (text, rest) => (String.ofList text, rest)

/-- What follows a text stands behind it, whether it has one line or many. -/
theorem quoted?_leaves (quote : Char) (cs : List Char) :
    Leaves Prod.snd cs (quoted? quote cs) := by
  refine .map (.ite ((lines?_leaves quote _ _).behind ?_) (line?_leaves quote _ cs)) fun _ => rfl
  split
  · exact (List.tail_suffix _).trans (List.drop_suffix 2 cs)
  · exact List.drop_suffix 2 cs

/-- Reads a key, and answers it with what follows. A quoted key stays on its line. -/
def key? : List Char → Option (String × List Char)
  | [] => none
  | c :: cs =>
    if c = '"' ∨ c = '\'' then if [c, c].isPrefixOf cs then none else quoted? c cs
    else
      let bare := (c :: cs).takeWhile isBare
      if bare.isEmpty then none else some (String.ofList bare, (c :: cs).dropWhile isBare)

/-- What follows a key stands behind it, with or without quotes. -/
theorem key?_leaves (cs : List Char) : Leaves Prod.snd cs (key? cs) := by
  unfold key?
  split
  case h_1 => exact leaves_none
  case h_2 c cs =>
    refine .ite (.ite leaves_none ((quoted?_leaves c cs).behind (List.suffix_cons c cs))) ?_
    exact .ite leaves_none (leaves_some (List.dropWhile_suffix _))

/-- **A bare key stands for itself** up to a character that is not one of it. -/
theorem key?_append {key : List Char} (hkey : ∀ c ∈ key, isBare c = true) (hne : key ≠ [])
    {c : Char} (hend : isBare c = false) (rest : List Char) :
    key? (key ++ c :: rest) = some (String.ofList key, c :: rest) := by
  obtain ⟨k, ks, rfl⟩ := List.exists_cons_of_ne_nil hne
  have hquote : ¬ (k = '"' ∨ k = '\'') := by
    rintro (rfl | rfl)
    · exact absurd (hkey '"' (by simp)) (by decide)
    · exact absurd (hkey '\'' (by simp)) (by decide)
  rw [List.cons_append, key?, if_neg hquote, ← List.cons_append,
    List.takeWhile_append_of_pos hkey, List.dropWhile_append_of_pos hkey]
  simp [hend]

/-- Reads keys with periods between them, and answers them with what follows the blanks behind
them. -/
def names? : Nat → List Char → Option (List String × List Char)
  | 0, _ => none
  | fuel + 1, cs => do
    let (key, rest) ← key? cs
    match rest.dropWhile isSpace with
    | '.' :: rest =>
      let (keys, rest) ← names? fuel (rest.dropWhile isSpace)
      return (key :: keys, rest)
    | rest => return ([key], rest)

/-- What follows the names of a key stands behind the last of them. -/
theorem names?_leaves (fuel : Nat) (cs : List Char) : Leaves Prod.snd cs (names? fuel cs) := by
  induction fuel generalizing cs with
  | zero => exact leaves_none
  | succ fuel ih =>
    refine (key?_leaves cs).bind fun ⟨key, rest⟩ => .behind ?_ (List.dropWhile_suffix isSpace)
    dsimp only
    split
    case h_1 rest heq =>
      refine heq ▸ .bind ((ih (rest.dropWhile isSpace)).behind ?_)
        fun _ => leaves_some (List.suffix_refl _)
      exact (List.dropWhile_suffix isSpace).trans (List.suffix_cons '.' rest)
    case h_2 => exact leaves_some (List.suffix_refl _)

/-- **There is a first name** among those that are read. -/
theorem ne_nil_of_names? {fuel : Nat} {cs rest : List Char} {names : List String}
    (h : names? fuel cs = some (names, rest)) : names ≠ [] := by
  cases fuel with
  | zero => cases h
  | succ fuel =>
    obtain ⟨⟨key, _⟩, _, h⟩ := Option.bind_eq_some_iff.1 h
    dsimp only at h
    split at h
    · obtain ⟨_, _, ⟨⟩⟩ := Option.bind_eq_some_iff.1 h
      exact List.cons_ne_nil _ _
    · cases h
      exact List.cons_ne_nil _ _

end Toml
end FlashVolume

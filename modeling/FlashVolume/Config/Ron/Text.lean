import FlashVolume.Text.Based
import FlashVolume.Text.Place
/-!
# Blanks, names and texts of RON

```text
comment   = "//" up to the end of the line | "/*" up to "*/", nested
name      = ( letter | "_" ) ( letter | digit | "_" )*
          | "r#" ( letter | digit | "_" | "." | "+" | "-" )+
text      = a text in double quotes, with escapes
          | "r" then any "#" then a text in double quotes then as many "#"
character = "'" character "'"
```

The letters are those of ASCII. The escapes are `\n \r \t \0 \" \' \\`, `\x` with two hexadecimal
digits, and `\u` with one to six of them in braces.
-/

namespace FlashVolume
namespace Ron

/-- A blank or a line break. -/
def isSpace (c : Char) : Bool :=
  c = ' ' || c = '\t' || c = '\n' || c = '\r'

/-- Where a reader of blanks and comments stands. -/
inductive Skipping where
  | blanks
  | lineComment
  /-- Inside as many block comments. -/
  | blockComment (depth : Nat)
deriving DecidableEq, Repr

/-- What follows blanks and comments; `none` if a comment is not closed. -/
def skip? : Skipping → List Char → Option (List Char)
  | .blanks, '/' :: '/' :: cs => skip? .lineComment cs
  | .blanks, '/' :: '*' :: cs => skip? (.blockComment 1) cs
  | .blanks, c :: cs => if isSpace c then skip? .blanks cs else some (c :: cs)
  | .lineComment, c :: cs => skip? (if c = '\n' then .blanks else .lineComment) cs
  | .blockComment depth, '/' :: '*' :: cs => skip? (.blockComment (depth + 1)) cs
  | .blockComment depth, '*' :: '/' :: cs =>
    skip? (if depth ≤ 1 then .blanks else .blockComment (depth - 1)) cs
  | .blockComment depth, _ :: cs => skip? (.blockComment depth) cs
  | .blockComment _, [] => none
  | _, [] => some []

/-- Blanks and comments are skipped from where they start. -/
theorem skip?_leaves (m : Skipping) (cs : List Char) : Leaves id cs (skip? m cs) := by
  fun_induction skip? m cs with
  | case1 cs ih => exact ih.behind (List.suffix_append ['/', '/'] cs)
  | case2 cs ih => exact ih.behind (List.suffix_append ['/', '*'] cs)
  | case3 c cs _ _ _ ih => exact ih.behind (List.suffix_cons c cs)
  | case4 c cs => exact leaves_some (List.suffix_refl (c :: cs))
  | case5 c cs ih => exact ih.behind (List.suffix_cons c cs)
  | case6 depth cs ih => exact ih.behind (List.suffix_append ['/', '*'] cs)
  | case7 depth cs ih => exact ih.behind (List.suffix_append ['*', '/'] cs)
  | case8 depth c cs _ _ ih => exact ih.behind (List.suffix_cons c cs)
  | case9 => exact leaves_none
  | case10 => exact leaves_some (List.suffix_refl [])

/-- **Comments are nested:** one inside another ends where its own end is. -/
theorem skip?_blockComment (depth : Nat) {comment : List Char}
    (h : ∀ c ∈ comment, c ≠ '*' ∧ c ≠ '/') (cs : List Char) :
    skip? (.blockComment (depth + 1)) ('/' :: '*' :: comment ++ '*' :: '/' :: cs) =
      skip? (.blockComment (depth + 1)) cs := by
  have hinside : skip? (.blockComment (depth + 2)) (comment ++ '*' :: '/' :: cs) =
      skip? (.blockComment (depth + 1)) cs := by
    induction comment with
    | nil => simp [skip?]
    | cons c comment ih =>
      obtain ⟨hstar, hslash⟩ := h c (by simp)
      rw [List.cons_append, skip?, ih fun d hd => h d (by simp [hd])]
      all_goals simp [hstar, hslash]
  simpa [skip?] using hinside

/-- What follows blanks and comments; `none` if a comment is not closed. -/
def blank? (cs : List Char) : Option (List Char) :=
  skip? .blanks cs

/-- What follows blanks and comments is an end of the text. -/
theorem blank?_leaves (cs : List Char) : Leaves id cs (blank? cs) :=
  skip?_leaves .blanks cs

/-- What follows a word, and blanks and comments behind it. -/
def word? (cs : List Char) (word : String) : Option (List Char) :=
  if word.toList.isPrefixOf cs then blank? (cs.drop word.length) else none

/-- What follows a word stands behind it and the blanks after it. -/
theorem word?_leaves (cs : List Char) (word : String) : Leaves id cs (word? cs word) :=
  .ite ((blank?_leaves _).behind (List.drop_suffix _ cs)) leaves_none

/-- What a name consists of. -/
def isNameChar (c : Char) : Bool :=
  c.isAlphanum || c = '_'

/-- What a name behind `r#` consists of. -/
def isRawChar (c : Char) : Bool :=
  isNameChar c || c = '.' || c = '+' || c = '-'

/-- Reads a name, and answers it with what follows. An `r` may be the start of a text instead, and
none is the last character of a file. -/
def name? : List Char → Option (String × List Char)
  | ['r'] => none
  | 'r' :: '"' :: _ => none
  | 'r' :: '#' :: cs =>
    if (cs.takeWhile isRawChar).isEmpty then none
    else some (String.ofList (cs.takeWhile isRawChar), cs.dropWhile isRawChar)
  | c :: cs =>
    if c.isAlpha ∨ c = '_' then
      some (String.ofList (c :: cs.takeWhile isNameChar), cs.dropWhile isNameChar)
    else none
  | [] => none

/-- What follows a name stands behind its last character. -/
theorem name?_leaves (cs : List Char) : Leaves Prod.snd cs (name? cs) := by
  unfold name?
  split
  case h_3 cs =>
    refine .ite leaves_none (leaves_some ((List.dropWhile_suffix _).trans ?_))
    exact List.suffix_append ['r', '#'] cs
  case h_4 c cs _ _ _ =>
    exact .ite (leaves_some ((List.dropWhile_suffix _).trans (List.suffix_cons c cs))) leaves_none
  all_goals exact leaves_none

/-- Reads an escape behind its backslash, and answers its character with what follows. -/
def escape? : List Char → Option (Char × List Char)
  | 'n' :: cs => some ('\n', cs)
  | 'r' :: cs => some ('\r', cs)
  | 't' :: cs => some ('\t', cs)
  | '0' :: cs => some (Char.ofNat 0, cs)
  | 'x' :: a :: b :: cs => (Text.codePoint? [a, b]).map (·, cs)
  | 'u' :: '{' :: cs => do
    let ds := cs.takeWhile (· ≠ '}')
    guard (1 ≤ ds.length ∧ ds.length ≤ 6)
    let rest := cs.dropWhile (· ≠ '}')
    if rest.isEmpty then none else return (← Text.codePoint? ds, rest.tail)
  | c :: cs => if c = '"' ∨ c = '\'' ∨ c = '\\' then some (c, cs) else none
  | [] => none

/-- What follows an escape stands behind it. -/
theorem escape?_leaves (cs : List Char) : Leaves Prod.snd cs (escape? cs) := by
  unfold escape?
  split
  case h_5 a b cs => exact leaves_map fun _ => List.suffix_append ['x', a, b] cs
  case h_6 cs =>
    refine leaves_bind fun _ => .ite leaves_none (leaves_bind fun _ => leaves_some ?_)
    exact (List.tail_suffix _).trans ((List.dropWhile_suffix _).trans
      (List.suffix_append ['u', _] cs))
  case h_7 c cs _ _ _ _ _ _ => exact .ite (leaves_some (List.suffix_cons c cs)) leaves_none
  case h_8 => exact leaves_none
  all_goals exact leaves_some (List.suffix_cons ..)

/-- Reads a text up to its closing quote, and answers it with what follows. -/
def text? : Nat → List Char → Option (List Char × List Char)
  | fuel + 1, c :: cs =>
    if c = '"' then some ([], cs)
    else do
      let (u, rest) ← if c = '\\' then escape? cs else some (c, cs)
      let (text, rest) ← text? fuel rest
      return (u :: text, rest)
  | _, _ => none

/-- What follows a text stands behind its closing quote. -/
theorem text?_leaves (fuel : Nat) (cs : List Char) : Leaves Prod.snd cs (text? fuel cs) := by
  induction fuel generalizing cs with
  | zero => exact leaves_none
  | succ fuel ih =>
    cases cs with
    | nil => exact leaves_none
    | cons c cs =>
      refine .behind (t := cs) (.ite (leaves_some (List.suffix_refl cs)) ?_) (List.suffix_cons c cs)
      refine .ite (.bind (escape?_leaves cs) fun ⟨_, rest⟩ => ?_) ?_
      · exact (ih rest).bind fun _ => leaves_some (List.suffix_refl _)
      · exact (ih cs).bind fun _ => leaves_some (List.suffix_refl _)

/-- **A text is read back** if none of its characters is a quote or a backslash. -/
theorem text?_append {text : List Char} (h : ∀ c ∈ text, c ≠ '"' ∧ c ≠ '\\') (rest : List Char)
    {fuel : Nat} (hfuel : text.length < fuel) :
    text? fuel (text ++ '"' :: rest) = some (text, rest) := by
  induction text generalizing fuel with
  | nil =>
    obtain ⟨fuel, rfl⟩ := Nat.exists_eq_succ_of_ne_zero (Nat.ne_of_gt hfuel)
    simp [text?]
  | cons c text ih =>
    obtain ⟨fuel, rfl⟩ := Nat.exists_eq_succ_of_ne_zero (Nat.ne_of_gt (Nat.zero_lt_of_lt hfuel))
    obtain ⟨hquote, hescape⟩ := h c (by simp)
    have hread := ih (fun d hd => h d (by simp [hd])) (by simpa using hfuel)
    simp [text?, hquote, hescape, hread]

/-- Reads a text without escapes up to a closing mark, and answers it with what follows. -/
def rawText? (mark : List Char) : List Char → Option (List Char × List Char)
  | [] => none
  | c :: cs =>
    if mark.isPrefixOf (c :: cs) then some ([], (c :: cs).drop mark.length)
    else (rawText? mark cs).map fun (text, rest) => (c :: text, rest)

/-- **A raw text stands for itself** up to its closing mark. -/
theorem rawText?_append {mark cs text rest : List Char}
    (h : rawText? mark cs = some (text, rest)) : cs = text ++ mark ++ rest := by
  fun_induction rawText? mark cs generalizing text with
  | case1 => cases h
  | case2 c cs hmark =>
    cases h
    obtain ⟨after, hafter⟩ := List.isPrefixOf_iff_prefix.1 hmark
    rw [List.nil_append, ← hafter, List.drop_left]
  | case3 c cs _ ih =>
    obtain ⟨⟨text, _⟩, hread, ⟨⟩⟩ := Option.map_eq_some_iff.1 h
    rw [ih hread]
    rfl

/-- What follows a raw text stands behind its closing mark. -/
theorem rawText?_leaves (mark cs : List Char) : Leaves Prod.snd cs (rawText? mark cs) :=
  fun _ h => rawText?_append h ▸ List.suffix_append _ _

/-- Reads a text behind `r`, and answers it with what follows. -/
def raw? (cs : List Char) : Option (List Char × List Char) :=
  let marks := cs.takeWhile (· = '#')
  match cs.dropWhile (· = '#') with
  | '"' :: rest => rawText? ('"' :: marks) rest
  | _ => none

/-- The same with the opening mark, which says what closes the text. -/
theorem raw?_leaves (cs : List Char) : Leaves Prod.snd cs (raw? cs) := by
  refine .behind ?_ (List.dropWhile_suffix (· = '#'))
  unfold raw?
  dsimp only
  split
  case h_1 rest heq => exact heq ▸ (rawText?_leaves _ rest).behind (List.suffix_cons '"' rest)
  case h_2 => exact leaves_none

/-- Reads a text, and answers it with what follows. -/
def string? : List Char → Option (String × List Char)
  | '"' :: cs => (text? cs.length cs).map fun (text, rest) => (String.ofList text, rest)
  | 'r' :: cs => (raw? cs).map fun (text, rest) => (String.ofList text, rest)
  | _ => none

/-- What follows a text stands behind it, whichever of the two kinds it is. -/
theorem string?_leaves (cs : List Char) : Leaves Prod.snd cs (string? cs) := by
  unfold string?
  split
  case h_1 cs => exact ((text?_leaves _ cs).behind (List.suffix_cons '"' cs)).map fun _ => rfl
  case h_2 cs => exact ((raw?_leaves cs).behind (List.suffix_cons 'r' cs)).map fun _ => rfl
  case h_3 => exact leaves_none

/-- Reads a character between quotes, and answers it with what follows. -/
def character? : List Char → Option (Char × List Char)
  | '\'' :: '\\' :: cs => do
    match ← escape? cs with
    | (c, '\'' :: rest) => return (c, rest)
    | _ => none
  | '\'' :: c :: '\'' :: rest => if c = '\'' then none else some (c, rest)
  | _ => none

/-- What follows a character stands behind its closing quote. -/
theorem character?_leaves (cs : List Char) : Leaves Prod.snd cs (character? cs) := by
  unfold character?
  split
  case h_1 cs =>
    refine ((escape?_leaves cs).behind (List.suffix_append ['\'', '\\'] cs)).bind fun read => ?_
    split
    case h_1 rest => exact leaves_some (List.suffix_cons '\'' rest)
    case h_2 => exact leaves_none
  case h_2 c rest _ =>
    exact .ite leaves_none (leaves_some (List.suffix_append ['\'', c, '\''] rest))
  case h_3 => exact leaves_none

end Ron
end FlashVolume

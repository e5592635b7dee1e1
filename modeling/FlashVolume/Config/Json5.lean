import FlashVolume.Config.Json
import FlashVolume.Decimal.Reading
import FlashVolume.Text.Blank
import FlashVolume.Text.Letter
import FlashVolume.Text.Mark
/-!
# JSON5 settings files

Section 10.5 of the specification: what `load` reads in `fsu.json5`.

JSON with comments, texts in single quotes, trailing commas, and keys without quotes:

```text
key     = text | start ( start | mark )*
start   = letter | "$" | "_" | "\uXXXX"
number  = [sign] ( "0x" hex digits | decimal | "Infinity" | "NaN" )
comment = "//" up to the end of the line | "/*" up to "*/"
```

A decimal number may start or end with its point. One without a point and an exponent is an integer
of 64 bits, one in base sixteen has 32 bits and no sign, and only a minus may stand before a word.
In a text, a backslash before the end of a line drops both, also between the two escapes of one
character.

The file holds an object, and its members are the settings.
-/

namespace FlashVolume
namespace Json5

/-- Whether a character ends a line. -/
def isBreak (c : Char) : Bool :=
  c = '\n' || c = '\r' || c.toNat = 0x2028 || c.toNat = 0x2029

/-- White space: that of JSON, and what Unicode counts as a separator. -/
def isSpace (c : Char) : Bool :=
  Text.isBlank c && c.toNat ≠ 0x85 || c.toNat = 0xFEFF

/-- Where a reader of blanks and comments stands. -/
inductive Skipping where
  | blanks
  | lineComment
  | blockComment
deriving DecidableEq, Repr

/-- What follows blanks and comments; `none` if a comment is not closed. -/
def skip? : Skipping → List Char → Option (List Char)
  | .blanks, '/' :: '/' :: cs => skip? .lineComment cs
  | .blanks, '/' :: '*' :: cs => skip? .blockComment cs
  | .blanks, c :: cs => if isSpace c then skip? .blanks cs else some (c :: cs)
  | .lineComment, c :: cs => skip? (if isBreak c then .blanks else .lineComment) cs
  | .blockComment, '*' :: '/' :: cs => skip? .blanks cs
  | .blockComment, _ :: cs => skip? .blockComment cs
  | .blockComment, [] => none
  | _, [] => some []

/-- Blanks and comments are skipped from where they start. -/
theorem skip?_leaves (m : Skipping) (cs : List Char) : Leaves id cs (skip? m cs) := by
  fun_induction skip? m cs with
  | case1 cs ih => exact ih.behind (List.suffix_append ['/', '/'] cs)
  | case2 cs ih => exact ih.behind (List.suffix_append ['/', '*'] cs)
  | case3 c cs _ _ _ ih => exact ih.behind (List.suffix_cons c cs)
  | case4 c cs => exact leaves_some (List.suffix_refl (c :: cs))
  | case5 c cs ih => exact ih.behind (List.suffix_cons c cs)
  | case6 cs ih => exact ih.behind (List.suffix_append ['*', '/'] cs)
  | case7 c cs _ ih => exact ih.behind (List.suffix_cons c cs)
  | case8 => exact leaves_none
  | case9 => exact leaves_some (List.suffix_refl [])

/-- **Blanks do not count,** however many there are. -/
theorem skip?_blanks {blanks : List Char} (h : ∀ c ∈ blanks, isSpace c = true) (cs : List Char) :
    skip? .blanks (blanks ++ cs) = skip? .blanks cs := by
  induction blanks with
  | nil => rfl
  | cons c blanks ih =>
    have hspace : isSpace c = true := h c (by simp)
    have hslash : c ≠ '/' := by
      rintro rfl
      exact absurd hspace (by decide)
    rw [List.cons_append, skip?, if_pos hspace, ih fun d hd => h d (by simp [hd])]
    all_goals simp [hslash]

/-- **A comment does not count** up to the end of its line. -/
theorem skip?_lineComment {comment : List Char} (h : ∀ c ∈ comment, isBreak c = false)
    (cs : List Char) : skip? .lineComment (comment ++ '\n' :: cs) = skip? .blanks cs := by
  induction comment with
  | nil => rfl
  | cons c comment ih =>
    rw [List.cons_append, skip?, h c (by simp), if_neg Bool.false_ne_true]
    exact ih fun d hd => h d (by simp [hd])

/-! ## Texts and keys -/

/-- What follows line breaks that are dropped. -/
def afterJoins : List Char → List Char
  | '\\' :: '\r' :: '\n' :: cs => afterJoins cs
  | '\\' :: c :: cs => if isBreak c then afterJoins cs else '\\' :: c :: cs
  | cs => cs

/-- What follows dropped line breaks is an end of the text. -/
theorem afterJoins_suffix (cs : List Char) : afterJoins cs <:+ cs := by
  fun_induction afterJoins cs with
  | case1 cs ih => exact ih.trans (List.suffix_append ['\\', '\r', '\n'] cs)
  | case2 c cs _ _ ih => exact ih.trans (List.suffix_append ['\\', c] cs)
  | case3 c cs => exact List.suffix_refl _
  | case4 cs => exact List.suffix_refl cs

/-- Reads a code point behind `\u`, and answers its character with what follows. An upper half is
completed by a lower one, which has its own `\u`, and `between` answers where that stands. The lower
half counts from 0x10000, and the upper one sets the bits from the tenth on. -/
def codePoint? (between : List Char → List Char) (cs : List Char) : Option (Char × List Char) := do
  let (n, rest) ← Json.fourDigits? cs
  if 0xD800 ≤ n ∧ n < 0xDC00 then
    match between rest with
    | '\\' :: 'u' :: rest =>
      let (m, rest) ← Json.fourDigits? rest
      guard (0xDC00 ≤ m ∧ m < 0xE000)
      return (← Text.charOf? ((n - 0xD800) <<< 10 ||| (m - 0xDC00 + 0x10000)), rest)
    | _ => none
  else return (← Text.charOf? n, rest)

/-- A code point is read from where it stands, if what is passed over between its halves is too. -/
theorem codePoint?_leaves {between : List Char → List Char} (h : ∀ cs, between cs <:+ cs)
    (cs : List Char) : Leaves Prod.snd cs (codePoint? between cs) := by
  refine (Json.fourDigits?_leaves cs).bind fun ⟨n, rest⟩ => .ite (.behind ?_ (h rest)) ?_
  · dsimp only
    split
    case h_1 rest heq =>
      refine heq ▸ .bind ((Json.fourDigits?_leaves rest).behind ?_) fun _ => leaves_bind fun _ =>
        leaves_bind fun _ => leaves_some (List.suffix_refl _)
      exact List.suffix_append ['\\', 'u'] rest
    case h_2 => exact leaves_none
  · exact leaves_bind fun _ => leaves_some (List.suffix_refl _)

/-- Reads an escape behind its backslash, and answers what it stands for with what follows. -/
def escape? : List Char → Option (List Char × List Char)
  | [] => none
  | '\r' :: '\n' :: cs => some ([], cs)
  | 'u' :: cs => (codePoint? afterJoins cs).map fun (u, rest) => ([u], rest)
  | 'x' :: a :: b :: cs => (Text.codePoint? [a, b]).map fun u => ([u], cs)
  | 'b' :: cs => some (['\x08'], cs)
  | 'f' :: cs => some (['\x0c'], cs)
  | 'n' :: cs => some (['\n'], cs)
  | 'r' :: cs => some (['\r'], cs)
  | 't' :: cs => some (['\t'], cs)
  | 'v' :: cs => some (['\x0b'], cs)
  | '0' :: cs => some ([Char.ofNat 0], cs)
  | c :: cs =>
    if isBreak c then some ([], cs)
    else if c.isDigit ∨ c = 'x' then none
    else some ([c], cs)

/-- What follows an escape stands behind it. -/
theorem escape?_leaves (cs : List Char) : Leaves Prod.snd cs (escape? cs) := by
  unfold escape?
  split
  case h_1 => exact leaves_none
  case h_2 cs => exact leaves_some (List.suffix_append ['\r', '\n'] cs)
  case h_3 cs =>
    exact ((codePoint?_leaves afterJoins_suffix cs).behind (List.suffix_cons 'u' cs)).map
      fun _ => rfl
  case h_4 a b cs =>
    exact leaves_map fun _ => List.suffix_append ['x', a, b] cs
  case h_12 c cs _ _ _ _ _ _ _ _ _ _ =>
    have hrest := List.suffix_cons c cs
    exact .ite (leaves_some hrest) (.ite leaves_none (leaves_some hrest))
  all_goals exact leaves_some (List.suffix_cons ..)

/-- Reads a text up to its closing quote, and answers it with what follows. -/
def text? (quote : Char) : Nat → List Char → Option (List Char × List Char)
  | fuel + 1, c :: cs =>
    if c = quote then some ([], cs)
    else if isBreak c then none
    else do
      let (first, rest) ← if c = '\\' then escape? cs else some ([c], cs)
      let (text, rest) ← text? quote fuel rest
      return (first ++ text, rest)
  | _, _ => none

/-- What follows a text stands behind its closing quote. -/
theorem text?_leaves (quote : Char) (fuel : Nat) (cs : List Char) :
    Leaves Prod.snd cs (text? quote fuel cs) := by
  induction fuel generalizing cs with
  | zero => exact leaves_none
  | succ fuel ih =>
    cases cs with
    | nil => exact leaves_none
    | cons c cs =>
      refine .behind (t := cs) (.ite (leaves_some (List.suffix_refl cs)) (.ite leaves_none ?_))
        (List.suffix_cons c cs)
      refine .ite (.bind (escape?_leaves cs) ?_) ?_
      · rintro ⟨_, rest⟩
        exact (ih rest).bind fun _ => leaves_some (List.suffix_refl _)
      · exact (ih cs).bind fun _ => leaves_some (List.suffix_refl _)

/-- **A text is read back** if none of its characters is a quote, a backslash or a line break. -/
theorem text?_append {quote : Char} {text rest : List Char}
    (h : ∀ c ∈ text, c ≠ quote ∧ c ≠ '\\' ∧ isBreak c = false) {fuel : Nat}
    (hfuel : text.length < fuel) :
    text? quote fuel (text ++ quote :: rest) = some (text, rest) := by
  induction text generalizing fuel with
  | nil =>
    obtain ⟨fuel, rfl⟩ := Nat.exists_eq_succ_of_ne_zero (Nat.ne_of_gt hfuel)
    simp [text?]
  | cons c text ih =>
    obtain ⟨fuel, rfl⟩ := Nat.exists_eq_succ_of_ne_zero (Nat.ne_of_gt (Nat.zero_lt_of_lt hfuel))
    obtain ⟨hquote, hescape, hbreak⟩ := h c (by simp)
    have hread := ih (fun d hd => h d (by simp [hd])) (by simpa using hfuel)
    simp [text?, hquote, hescape, hbreak, hread]

/-- Whether an identifier may start with a character. -/
def isStart (c : Char) : Bool :=
  Text.isLetter c || c = '$' || c = '_'

/-- Whether a character may stand in an identifier. Besides marks, so may the two that join and
part letters. -/
def isPart (c : Char) : Bool :=
  isStart c || Text.isMark c || c.toNat = 0x200C || c.toNat = 0x200D

/-- The letters and digits of ASCII may stand in an identifier. -/
theorem isPart_of_isAlphanum {c : Char} (h : c.isAlphanum = true) : isPart c = true := by
  rcases Bool.or_eq_true_iff.1 h with halpha | hdigit
  · simp [isPart, isStart, Text.isLetter_of_isAlpha halpha]
  · simp [isPart, Text.isMark_of_isDigit hdigit]

/-- Reads the characters of an identifier, and answers them with what follows. -/
def identifier? : Nat → List Char → Option (List Char × List Char)
  | fuel + 1, '\\' :: 'u' :: cs => do
    let (u, rest) ← codePoint? id cs
    let (more, rest) ← identifier? fuel rest
    return (u :: more, rest)
  | fuel + 1, c :: cs =>
    if isPart c then (identifier? fuel cs).map fun (more, rest) => (c :: more, rest)
    else some ([], c :: cs)
  | _, cs => some ([], cs)

/-- What follows an identifier stands behind its last character. -/
theorem identifier?_leaves (fuel : Nat) (cs : List Char) :
    Leaves Prod.snd cs (identifier? fuel cs) := by
  fun_induction identifier? fuel cs with
  | case1 fuel cs ih =>
    refine ((codePoint?_leaves List.suffix_refl cs).behind ?_).bind fun ⟨_, rest⟩ => ?_
    · exact List.suffix_append ['\\', 'u'] cs
    · exact (ih rest).bind fun _ => leaves_some (List.suffix_refl _)
  | case2 fuel c cs _ _ ih => exact (ih.behind (List.suffix_cons c cs)).map fun _ => rfl
  | case3 fuel c cs => exact leaves_some (List.suffix_refl (c :: cs))
  | case4 fuel cs => exact leaves_some (List.suffix_refl cs)

/-- **A name is read back** as far as its characters may stand in an identifier. -/
theorem identifier?_append {name : List Char} (h : ∀ c ∈ name, isPart c = true) {c : Char}
    {rest : List Char} (hend : isPart c = false) (hescape : c ≠ '\\') {fuel : Nat}
    (hfuel : name.length < fuel) :
    identifier? fuel (name ++ c :: rest) = some (name, c :: rest) := by
  induction name generalizing fuel with
  | nil =>
    obtain ⟨fuel, rfl⟩ := Nat.exists_eq_succ_of_ne_zero (Nat.ne_of_gt hfuel)
    simp [identifier?, hend, hescape]
  | cons d name ih =>
    obtain ⟨fuel, rfl⟩ := Nat.exists_eq_succ_of_ne_zero (Nat.ne_of_gt (Nat.zero_lt_of_lt hfuel))
    have hpart : isPart d = true := h d (by simp)
    have hbackslash : d ≠ '\\' := by
      rintro rfl
      exact absurd hpart (by decide)
    have hread := ih (fun e he => h e (by simp [he])) (by simpa using hfuel)
    simp [identifier?, hpart, hbackslash, hread]

/-- Reads a key, and answers it with what follows. -/
def key? (cs : List Char) : Option (String × List Char) :=
  match cs with
  | [] => none
  | c :: rest =>
    if c = '"' ∨ c = '\'' then
      (text? c rest.length rest).map fun (text, rest) => (String.ofList text, rest)
    else if c ≠ '\\' ∧ ¬ isStart c then none
    else
      match identifier? cs.length cs with
      | some ([], _) => none
      | some (name, rest) => some (String.ofList name, rest)
      | none => none

/-- What follows a key stands behind it, with or without quotes. -/
theorem key?_leaves (cs : List Char) : Leaves Prod.snd cs (key? cs) := by
  unfold key?
  split
  case h_1 => exact leaves_none
  case h_2 c rest =>
    refine .ite ?_ (.ite leaves_none ?_)
    · exact ((text?_leaves c _ rest).behind (List.suffix_cons c rest)).map fun _ => rfl
    · split
      case h_2 name rest' _ heq =>
        exact leaves_some (identifier?_leaves _ _ (name, rest') heq)
      all_goals exact leaves_none

/-! ## Numbers -/

/-- The sign of a number, if it has one, and what stands behind it. -/
def splitSign : List Char → List Char × List Char
  | '+' :: cs => (['+'], cs)
  | '-' :: cs => (['-'], cs)
  | cs => ([], cs)

/-- A number is its sign and what stands behind it. -/
theorem splitSign_append (cs : List Char) : (splitSign cs).1 ++ (splitSign cs).2 = cs := by
  unfold splitSign
  split <;> rfl

/-- The digits of a number in base sixteen, if its mark stands here. -/
def hexDigits : List Char → List Char
  | '0' :: x :: hs =>
    if x = 'x' ∨ x = 'X' then hs.takeWhile fun h => (Text.digitIn? 16 h).isSome else []
  | _ => []

/-- The mark of base sixteen and the digits behind it start the number. -/
theorem take_append_hexDigits_isPrefix (cs : List Char) : cs.take 2 ++ hexDigits cs <+: cs := by
  unfold hexDigits
  split
  case h_1 x hs =>
    split
    · exact (List.prefix_cons_inj '0').2 ((List.prefix_cons_inj x).2 (List.takeWhile_prefix _))
    · simp
  case h_2 => simpa using List.take_prefix 2 cs

/-- The fraction of a number with its point. A point by itself is none. -/
def fraction (hasWhole : Bool) : List Char → List Char
  | '.' :: fs =>
    let ds := fs.takeWhile Char.isDigit
    if ¬ hasWhole ∧ ds.isEmpty then [] else '.' :: ds
  | _ => []

/-- A fraction starts with its point, where the whole part ends. -/
theorem fraction_isPrefix (hasWhole : Bool) (cs : List Char) : fraction hasWhole cs <+: cs := by
  unfold fraction
  split
  case h_1 fs =>
    dsimp only
    split
    · exact List.nil_prefix
    · exact (List.prefix_cons_inj '.').2 (List.takeWhile_prefix _)
  case h_2 => exact List.nil_prefix

/-- The exponent of a number with its mark. A mark without digits is none. -/
def exponent : List Char → List Char
  | e :: es =>
    let sign := (es.take 1).takeWhile fun c => c = '+' ∨ c = '-'
    let ds := (es.drop sign.length).takeWhile Char.isDigit
    if (e = 'e' ∨ e = 'E') ∧ ¬ ds.isEmpty then e :: sign ++ ds else []
  | [] => []

/-- A prefix goes on with one of what follows it. -/
theorem append_isPrefix_of_drop {front more cs : List Char} (hfront : front <+: cs)
    (hmore : more <+: cs.drop front.length) : front ++ more <+: cs := by
  obtain ⟨rest, rfl⟩ := hfront
  rw [List.drop_left] at hmore
  exact (List.prefix_append_right_inj front).2 hmore

/-- An exponent starts with its mark, where the fraction ends. -/
theorem exponent_isPrefix (cs : List Char) : exponent cs <+: cs := by
  unfold exponent
  split
  case h_1 e es =>
    dsimp only
    split
    · refine (List.prefix_cons_inj e).2 (append_isPrefix_of_drop ?_ (List.takeWhile_prefix _))
      exact (List.takeWhile_prefix _).trans (List.take_prefix 1 es)
    · exact List.nil_prefix
  case h_2 => exact List.nil_prefix

/-- The characters of a number behind its sign. A part that is missing its digits ends the number
before it. -/
def unsigned? (cs : List Char) : Option (List Char) :=
  if ['I', 'n', 'f', 'i', 'n', 'i', 't', 'y'].isPrefixOf cs then some (cs.take 8)
  else if ['N', 'a', 'N'].isPrefixOf cs then some (cs.take 3)
  else if ¬ (hexDigits cs).isEmpty then some (cs.take 2 ++ hexDigits cs)
  else
    let whole := if cs.head? = some '0' then ['0'] else cs.takeWhile Char.isDigit
    let decimal := whole ++ fraction (!whole.isEmpty) (cs.drop whole.length)
    if decimal.isEmpty then none else some (decimal ++ exponent (cs.drop decimal.length))

/-- The characters of a number are the first that stand behind its sign. -/
theorem unsigned?_isPrefix {cs numeral : List Char} (h : unsigned? cs = some numeral) :
    numeral <+: cs := by
  have hwhole : (if cs.head? = some '0' then ['0'] else cs.takeWhile Char.isDigit) <+: cs := by
    split
    case isTrue hzero =>
      obtain ⟨rest, rfl⟩ := List.head?_eq_some_iff.1 hzero
      exact List.prefix_append ['0'] rest
    case isFalse => exact List.takeWhile_prefix _
  unfold unsigned? at h
  split at h
  · exact Option.some.inj h ▸ List.take_prefix 8 cs
  split at h
  · exact Option.some.inj h ▸ List.take_prefix 3 cs
  split at h
  · exact Option.some.inj h ▸ take_append_hexDigits_isPrefix cs
  obtain ⟨-, h⟩ := Option.ite_none_left_eq_some.1 h
  refine Option.some.inj h ▸ append_isPrefix_of_drop ?_ (exponent_isPrefix _)
  exact append_isPrefix_of_drop hwhole (fraction_isPrefix _ _)

/-- Reads the characters of a number, and answers them with what follows. -/
def numeral? (cs : List Char) : Option (List Char × List Char) :=
  let (sign, rest) := splitSign cs
  (unsigned? rest).map fun numeral => (sign ++ numeral, rest.drop numeral.length)

/-- **The characters of a number are those that stand there.** -/
theorem numeral?_append {cs numeral rest : List Char} (h : numeral? cs = some (numeral, rest)) :
    numeral ++ rest = cs := by
  obtain ⟨unsigned, hunsigned, heq⟩ := Option.map_eq_some_iff.1 h
  obtain ⟨rfl, rfl⟩ := Prod.mk.inj heq
  obtain ⟨after, hafter⟩ := unsigned?_isPrefix hunsigned
  rw [← hafter, List.drop_left, List.append_assoc, hafter]
  exact splitSign_append cs

/-- What follows a number stands behind its last character. -/
theorem numeral?_leaves (cs : List Char) : Leaves Prod.snd cs (numeral? cs) :=
  fun _ h => numeral?_append h ▸ List.suffix_append _ _

/-- The value of a number. -/
def numberOf? (cs : List Char) : Option Setting :=
  let text := String.ofList cs
  match cs with
  | '0' :: x :: hs =>
    if x = 'x' ∨ x = 'X' then do
      let n ← Text.valueIn? 16 hs
      if n ≤ Word.maxUnsigned32 then some (.int n) else none
    else decimal? cs text
  | _ => decimal? cs text
where
  /-- The value of a number in base ten, or of a word. -/
  decimal? (cs : List Char) (text : String) : Option Setting :=
    if text = "Infinity" then some (.float (.infinite false))
    else if text = "-Infinity" then some (.float (.infinite true))
    else if text = "NaN" ∨ text = "-NaN" then some (.float .notANumber)
    else if cs.any fun c => c = '.' ∨ c = 'e' ∨ c = 'E' then
      match Binary64.ofText? text with
      | some (.finite s m e) => some (.float (.finite s m e))
      | _ => none
    else (Text.signed64? text).map .int

/-! ## Values -/

mutual

/-- Reads a value, and answers it with what follows. -/
def value? : Nat → List Char → Option (Setting × List Char)
  | 0, _ => none
  | fuel + 1, cs =>
    match cs with
    | '"' :: cs => (text? '"' cs.length cs).map fun (t, rest) => (.text (String.ofList t), rest)
    | '\'' :: cs => (text? '\'' cs.length cs).map fun (t, rest) => (.text (String.ofList t), rest)
    | '[' :: cs => do
      let (items, rest) ← items? fuel (← skip? .blanks cs)
      return (.list items, rest)
    | '{' :: cs => do
      let (members, rest) ← members? fuel (← skip? .blanks cs)
      return (.ofEntries members, rest)
    | 'n' :: _ => (Json.word? "null" cs).map (.null, ·)
    | 't' :: _ => (Json.word? "true" cs).map (.bool true, ·)
    | 'f' :: _ => (Json.word? "false" cs).map (.bool false, ·)
    | cs => do
      let (numeral, rest) ← numeral? cs
      return (← numberOf? numeral, rest)
termination_by structural fuel => fuel

/-- Reads the values of a list up to its closing bracket, and answers them with what follows. -/
def items? : Nat → List Char → Option (List Setting × List Char)
  | 0, _ => none
  | fuel + 1, cs =>
    match cs with
    | ']' :: rest => some ([], rest)
    | cs => do
      let (value, rest) ← value? fuel cs
      match ← skip? .blanks rest with
      | ']' :: rest => return ([value], rest)
      | ',' :: rest =>
        let (values, rest) ← items? fuel (← skip? .blanks rest)
        return (value :: values, rest)
      | _ => none
termination_by structural fuel => fuel

/-- Reads the members of an object up to its closing brace, and answers them with what follows. -/
def members? : Nat → List Char → Option (List (String × Setting) × List Char)
  | 0, _ => none
  | fuel + 1, cs =>
    match cs with
    | '}' :: rest => some ([], rest)
    | cs => do
      let (key, rest) ← key? cs
      match ← skip? .blanks rest with
      | ':' :: rest =>
        let (value, rest) ← value? fuel (← skip? .blanks rest)
        match ← skip? .blanks rest with
        | '}' :: rest => return ([(key, value)], rest)
        | ',' :: rest =>
          let (members, rest) ← members? fuel (← skip? .blanks rest)
          return ((key, value) :: members, rest)
        | _ => none
      | _ => none
termination_by structural fuel => fuel

end

mutual

/-- **A value is read from the start,** and what it leaves follows it. -/
theorem value?_leaves (fuel : Nat) (cs : List Char) : Leaves Prod.snd cs (value? fuel cs) := by
  cases fuel with
  | zero => exact leaves_none
  | succ fuel =>
    unfold value?
    split
    case h_1 cs => exact ((text?_leaves '"' _ cs).behind (List.suffix_cons ..)).map fun _ => rfl
    case h_2 cs => exact ((text?_leaves '\'' _ cs).behind (List.suffix_cons ..)).map fun _ => rfl
    case h_3 cs =>
      refine .behind (.bind (skip?_leaves .blanks cs) fun rest => ?_) (List.suffix_cons '[' cs)
      exact (items?_leaves fuel rest).bind fun _ => leaves_some (List.suffix_refl _)
    case h_4 cs =>
      refine .behind (.bind (skip?_leaves .blanks cs) fun rest => ?_) (List.suffix_cons _ cs)
      exact (members?_leaves fuel rest).bind fun _ => leaves_some (List.suffix_refl _)
    case h_8 =>
      exact (numeral?_leaves cs).bind fun _ => leaves_bind fun _ => leaves_some (List.suffix_refl _)
    all_goals exact (Json.word?_leaves _ _).map fun _ => rfl

/-- What follows the items of a list stands behind its closing bracket. -/
theorem items?_leaves (fuel : Nat) (cs : List Char) : Leaves Prod.snd cs (items? fuel cs) := by
  cases fuel with
  | zero => exact leaves_none
  | succ fuel =>
    unfold items?
    split
    case h_1 rest => exact leaves_some (List.suffix_cons ']' rest)
    case h_2 =>
      refine (value?_leaves fuel cs).bind fun ⟨_, rest⟩ => ?_
      refine (skip?_leaves .blanks rest).bind fun rest => ?_
      split
      case h_1 rest => exact leaves_some (List.suffix_cons ']' rest)
      case h_2 rest =>
        refine .behind (.bind (skip?_leaves .blanks rest) fun rest => ?_)
          (List.suffix_cons ',' rest)
        exact (items?_leaves fuel rest).bind fun _ => leaves_some (List.suffix_refl _)
      case h_3 => exact leaves_none

/-- What follows the members of an object stands behind its closing brace. -/
theorem members?_leaves (fuel : Nat) (cs : List Char) :
    Leaves Prod.snd cs (members? fuel cs) := by
  cases fuel with
  | zero => exact leaves_none
  | succ fuel =>
    unfold members?
    split
    case h_1 rest => exact leaves_some (List.suffix_cons _ rest)
    case h_2 =>
      refine (key?_leaves cs).bind fun ⟨_, rest⟩ => ?_
      refine (skip?_leaves .blanks rest).bind fun rest => ?_
      split
      case h_2 => exact leaves_none
      case h_1 rest =>
        refine .behind (.bind (skip?_leaves .blanks rest) fun rest => ?_)
          (List.suffix_cons ':' rest)
        refine (value?_leaves fuel rest).bind fun ⟨_, rest⟩ => ?_
        refine (skip?_leaves .blanks rest).bind fun rest => ?_
        split
        case h_1 rest => exact leaves_some (List.suffix_cons _ rest)
        case h_2 rest =>
          refine .behind (.bind (skip?_leaves .blanks rest) fun rest => ?_)
            (List.suffix_cons ',' rest)
          exact (members?_leaves fuel rest).bind fun _ => leaves_some (List.suffix_refl _)
        case h_3 => exact leaves_none

end

/-- The settings of a file; `none` if it is malformed or holds no object. -/
def settings? (text : String) : Option (List (String × Setting)) := do
  match ← skip? .blanks text.toList with
  | '{' :: cs =>
    let (settings, rest) ← members? (2 * cs.length + 2) (← skip? .blanks cs)
    if (← skip? .blanks rest).isEmpty then some settings else none
  | _ => none

end Json5
end FlashVolume

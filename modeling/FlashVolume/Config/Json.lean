import FlashVolume.Config.Setting
import FlashVolume.Decimal.Scaled
import FlashVolume.Text.Based
import FlashVolume.Text.Numeral
import FlashVolume.Text.Place
/-!
# JSON settings files

Section 10.5 of the specification: what `load` reads in `fsu.json`.

The settings of a file are the members of the object that it holds; a file that holds another value
has none. Values are nested in at most 127 lists and objects.

A number without a fraction and an exponent is an integer if it fits into 64 bits with a sign, and
is not `-0`. Any other number is read in steps: of its digits those count that fit into 64 bits
without a sign, and where they end in the whole part, the digits of the fraction are tried again.
-/

namespace FlashVolume
namespace Json

/-- The most lists and objects around a value. -/
def maxDepth : Nat := 127

/-- What may stand between the parts of a file. -/
def isSpace (c : Char) : Bool :=
  c = ' ' || c = '\t' || c = '\n' || c = '\r'

/-- What follows blanks. -/
def skip (cs : List Char) : List Char :=
  cs.dropWhile isSpace

/-- What follows blanks is an end of the text. -/
theorem skip_suffix (cs : List Char) : skip cs <:+ cs :=
  List.dropWhile_suffix isSpace

/-- **Blanks do not count,** however many there are. -/
theorem skip_append {blanks cs : List Char} (h : ∀ c ∈ blanks, isSpace c = true) :
    skip (blanks ++ cs) = skip cs :=
  List.dropWhile_append_of_pos h

/-- No blank follows the blanks that have been skipped. -/
theorem skip_skip (cs : List Char) : skip (skip cs) = skip cs := by
  induction cs with
  | nil => rfl
  | cons c cs ih =>
    cases hspace : isSpace c with
    | true => simpa [skip, hspace] using ih
    | false => simp [skip, hspace]

/-! ## Texts -/

/-- Reads four hexadecimal digits, and answers their value with what follows. -/
def fourDigits? : List Char → Option (Nat × List Char)
  | a :: b :: c :: d :: rest =>
    (Text.valueIn? 16 [a, b, c, d]).map (·, rest)
  | _ => none

/-- Four digits are read from where they stand. -/
theorem fourDigits?_leaves (cs : List Char) : Leaves Prod.snd cs (fourDigits? cs) := by
  unfold fourDigits?
  split
  case h_1 a b c d rest => exact leaves_map fun _ => List.suffix_append [a, b, c, d] rest
  case h_2 => exact leaves_none

/-- Reads a code point behind `\u`, and answers its character with what follows. One above 0xFFFF is
written as two, of which the second has its own `\u`. -/
def codePoint? (cs : List Char) : Option (Char × List Char) := do
  let (n, rest) ← fourDigits? cs
  if 0xD800 ≤ n ∧ n < 0xDC00 then
    match rest with
    | '\\' :: 'u' :: rest =>
      let (m, rest) ← fourDigits? rest
      guard (0xDC00 ≤ m ∧ m < 0xE000)
      return (← Text.charOf? (0x10000 + (n - 0xD800) * 0x400 + (m - 0xDC00)), rest)
    | _ => none
  else return (← Text.charOf? n, rest)

/-- A code point may be written as two, and what follows it stands behind both. -/
theorem codePoint?_leaves (cs : List Char) : Leaves Prod.snd cs (codePoint? cs) := by
  refine (fourDigits?_leaves cs).bind fun ⟨n, rest⟩ => .ite ?_ ?_
  · split
    case h_1 rest =>
      refine ((fourDigits?_leaves rest).behind (List.suffix_append ['\\', 'u'] rest)).bind fun _ =>
        leaves_bind fun _ => leaves_bind fun _ => leaves_some (List.suffix_refl _)
    case h_2 => exact leaves_none
  · exact leaves_bind fun _ => leaves_some (List.suffix_refl _)

/-- Reads an escape behind its backslash, and answers its character with what follows. -/
def escape? : List Char → Option (Char × List Char)
  | 'u' :: cs => codePoint? cs
  | 'b' :: cs => some ('\x08', cs)
  | 'f' :: cs => some ('\x0c', cs)
  | 'n' :: cs => some ('\n', cs)
  | 'r' :: cs => some ('\r', cs)
  | 't' :: cs => some ('\t', cs)
  | c :: cs => if c = '"' ∨ c = '\\' ∨ c = '/' then some (c, cs) else none
  | [] => none

/-- What follows an escape stands behind it. -/
theorem escape?_leaves (cs : List Char) : Leaves Prod.snd cs (escape? cs) := by
  unfold escape?
  split
  case h_1 cs => exact (codePoint?_leaves cs).behind (List.suffix_cons 'u' cs)
  case h_7 => exact .ite (leaves_some (List.suffix_cons ..)) leaves_none
  case h_8 => exact leaves_none
  all_goals exact leaves_some (List.suffix_cons ..)

/-- Reads a text up to its closing quote, and answers it with what follows. -/
def text? : Nat → List Char → Option (List Char × List Char)
  | fuel + 1, c :: cs =>
    if c = '"' then some ([], cs)
    else if c = '\\' then do
      let (u, rest) ← escape? cs
      let (text, rest) ← text? fuel rest
      some (u :: text, rest)
    else if 0x20 ≤ c.toNat then do
      let (text, rest) ← text? fuel cs
      some (c :: text, rest)
    else none
  | _, _ => none

/-- What follows a text stands behind its closing quote. -/
theorem text?_leaves (fuel : Nat) (cs : List Char) : Leaves Prod.snd cs (text? fuel cs) := by
  induction fuel generalizing cs with
  | zero => exact leaves_none
  | succ fuel ih =>
    cases cs with
    | nil => exact leaves_none
    | cons c cs =>
      refine .behind (t := cs) (.ite (leaves_some (List.suffix_refl cs)) (.ite ?_ (.ite ?_ ?_)))
        (List.suffix_cons c cs)
      · exact (escape?_leaves cs).bind fun ⟨_, rest⟩ =>
          (ih rest).bind fun _ => leaves_some (List.suffix_refl _)
      · exact (ih cs).bind fun _ => leaves_some (List.suffix_refl _)
      · exact leaves_none

/-- What stands for itself in a text. -/
def isPlain (c : Char) : Bool :=
  c ≠ '"' && c ≠ '\\' && 0x20 ≤ c.toNat

/-- **A text is read back** if all its characters stand for themselves. -/
theorem text?_of_isPlain {text rest : List Char} (h : ∀ c ∈ text, isPlain c = true) {fuel : Nat}
    (hfuel : text.length < fuel) : text? fuel (text ++ '"' :: rest) = some (text, rest) := by
  induction text generalizing fuel with
  | nil =>
    obtain ⟨fuel, rfl⟩ := Nat.exists_eq_succ_of_ne_zero (Nat.ne_of_gt hfuel)
    simp [text?]
  | cons c text ih =>
    obtain ⟨fuel, rfl⟩ := Nat.exists_eq_succ_of_ne_zero (Nat.ne_of_gt (Nat.zero_lt_of_lt hfuel))
    obtain ⟨⟨hquote, hescape⟩, hprintable⟩ : (c ≠ '"' ∧ c ≠ '\\') ∧ 0x20 ≤ c.toNat := by
      simpa [isPlain] using h c (by simp)
    rw [List.cons_append, text?, if_neg hquote, if_neg hescape, if_pos hprintable,
      ih (fun d hd => h d (by simp [hd])) (by simpa using hfuel)]
    rfl

/-! ## Numbers -/

/-- The digits of a number that count, and the power of ten they are scaled with. -/
structure Mantissa where
  digits : Nat := 0
  exponent : Int := 0

/-- Adds a digit, if it fits. -/
def Mantissa.add? (m : Mantissa) (d : Char) : Option Mantissa :=
  let digits := m.digits * 10 + (d.toNat - 48)
  if digits ≤ Word.maxUnsigned64 then some { m with digits := digits } else none

/-- A digit that fits is taken. -/
theorem Mantissa.add?_of_fits {m : Mantissa} {d : Char}
    (h : m.digits * 10 + (d.toNat - 48) ≤ Word.maxUnsigned64) :
    m.add? d = some { m with digits := m.digits * 10 + (d.toNat - 48) } :=
  if_pos h

/-- Adds the digits of a whole part. Those after one that does not fit scale. -/
def Mantissa.addWhole (m : Mantissa) : List Char → Mantissa
  | [] => m
  | d :: ds =>
    match m.add? d with
    | some m => m.addWhole ds
    | none => { m with exponent := m.exponent + (ds.length + 1) }

/-- The digits of a whole part are taken one by one, as long as they fit. -/
theorem Mantissa.addWhole_cons {m next : Mantissa} {d : Char} (h : m.add? d = some next)
    (ds : List Char) : m.addWhole (d :: ds) = next.addWhole ds := by
  show (match m.add? d with
    | some m => m.addWhole ds
    | none => _) = _
  rw [h]

/-- More digits make no number smaller. -/
theorem Mantissa.le_foldl (n : Nat) (ds : List Char) :
    n ≤ ds.foldl (fun n d => n * 10 + (d.toNat - 48)) n := by
  induction ds generalizing n with
  | nil => exact Nat.le_refl n
  | cons d ds ih => exact Nat.le_trans (by omega) (ih (n * 10 + (d.toNat - 48)))

/-- If all digits fit, none of them scales. -/
theorem Mantissa.addWhole_eq {m : Mantissa} {ds : List Char}
    (h : ds.foldl (fun n d => n * 10 + (d.toNat - 48)) m.digits ≤ Word.maxUnsigned64) :
    m.addWhole ds =
      { m with digits := ds.foldl (fun n d => n * 10 + (d.toNat - 48)) m.digits } := by
  induction ds generalizing m with
  | nil => rfl
  | cons d ds ih =>
    rw [List.foldl_cons] at h
    -- What has been read so far is no more than the whole, and so fits too.
    have hfits := Nat.le_trans (Mantissa.le_foldl _ ds) h
    rw [Mantissa.addWhole_cons (Mantissa.add?_of_fits hfits), ih h]
    rfl

/-- **No digit is lost** of a whole part that fits. -/
theorem Mantissa.addWhole_of_fits {ds : List Char}
    (h : Text.digitsValue ds ≤ Word.maxUnsigned64) :
    ({} : Mantissa).addWhole ds = { digits := Text.digitsValue ds } := by
  unfold Text.digitsValue at h ⊢
  rw [Mantissa.addWhole_eq h]

/-- Adds the digits of a fraction. Those after one that does not fit are dropped. -/
def Mantissa.addFraction (m : Mantissa) : List Char → Mantissa
  | [] => m
  | d :: ds =>
    match m.add? d with
    | some m => { m with exponent := m.exponent - 1 }.addFraction ds
    | none => m

/-- The number with an exponent of its own. An exponent that does not fit into 32 bits is refused,
unless the number is zero or the exponent negative: then the number is zero. -/
def Mantissa.value? (m : Mantissa) (negative minus : Bool) (exponent : Nat) : Option Binary64 :=
  if exponent > 0x7FFFFFFF then
    if m.digits ≠ 0 ∧ ¬ minus then none else some (.ofQuotient negative 0 1)
  else
    let exponent : Int := if minus then -exponent else exponent
    Binary64.ofSteps? negative m.digits (m.exponent + exponent)

/-- The value of a number without a fraction and an exponent. -/
def integer? (negative : Bool) (ds : List Char) : Option Setting :=
  let n := Text.digitsValue ds
  if n ≤ Word.maxSigned64 ∧ ¬ (negative ∧ n = 0) then
    some (.int (if negative then -(n : Int) else n))
  else if negative ∧ n = Word.maxSigned64 + 1 then some (.int (-(n : Int)))
  else (({} : Mantissa).addWhole ds |>.value? negative false 0).map .float

/-- **An integer is read back from its digits** if it fits. -/
theorem integer?_natAbs {z : Int} (hlow : -(Word.maxSigned64 + 1 : Int) ≤ z)
    (hhigh : z ≤ Word.maxSigned64) :
    integer? (z < 0) (Nat.toDigits 10 z.natAbs) = some (.int z) := by
  rw [integer?, Text.digitsValue_toDigits]
  by_cases hneg : z < 0
  · by_cases hlast : z.natAbs = Word.maxSigned64 + 1
    · rw [if_neg (by omega), if_pos ⟨by simpa using hneg, hlast⟩]
      congr 2
      omega
    · rw [if_pos ⟨by omega, by omega⟩, if_pos (by simpa using hneg)]
      congr 2
      omega
  · rw [if_pos ⟨by omega, by simp [hneg]⟩, if_neg (by simpa using hneg)]
    congr 2
    omega

/-- Reads the fraction of a number, if there is one, and answers its digits with what follows. -/
def fraction? (cs : List Char) : Option (Option (List Char) × List Char) :=
  match cs with
  | '.' :: rest =>
    let ds := rest.takeWhile Char.isDigit
    if ds.isEmpty then none else some (some ds, rest.dropWhile Char.isDigit)
  | _ => some (none, cs)

/-- What follows a fraction stands behind its digits. -/
theorem fraction?_leaves (cs : List Char) : Leaves Prod.snd cs (fraction? cs) := by
  unfold fraction?
  split
  case h_1 rest =>
    exact .ite leaves_none
      (leaves_some ((List.dropWhile_suffix _).trans (List.suffix_cons '.' rest)))
  case h_2 => exact leaves_some (List.suffix_refl cs)

/-- Reads the exponent of a number, if there is one, and answers whether it is negative, and its
value, with what follows. -/
def exponent? (cs : List Char) : Option (Option (Bool × Nat) × List Char) :=
  match cs with
  | [] => some (none, [])
  | c :: rest =>
    if c = 'e' ∨ c = 'E' then do
      let minus := rest.head? = some '-'
      let rest := if minus ∨ rest.head? = some '+' then rest.tail else rest
      let n ← Text.digits? (rest.takeWhile Char.isDigit)
      return (some (minus, n), rest.dropWhile Char.isDigit)
    else some (none, cs)

/-- What follows an exponent stands behind its digits. -/
theorem exponent?_leaves (cs : List Char) : Leaves Prod.snd cs (exponent? cs) := by
  unfold exponent?
  cases cs with
  | nil => exact leaves_some (List.suffix_refl [])
  | cons c rest =>
    refine .ite (leaves_bind fun _ => leaves_some ?_) (leaves_some (List.suffix_refl _))
    refine (List.dropWhile_suffix _).trans (.trans ?_ (List.suffix_cons c rest))
    split
    · exact List.tail_suffix rest
    · exact List.suffix_refl rest

/-- Reads a number behind its sign, and answers it with what follows. -/
def number? (negative : Bool) (cs : List Char) : Option (Setting × List Char) := do
  let whole := cs.takeWhile Char.isDigit
  guard (whole ≠ [] ∧ ¬ (whole.head? = some '0' ∧ whole.length > 1))
  let (fraction, rest) ← fraction? (cs.dropWhile Char.isDigit)
  let (exponent, rest) ← exponent? rest
  if fraction.isNone ∧ exponent.isNone then return (← integer? negative whole, rest)
  else
    let m := (({} : Mantissa).addWhole whole).addFraction (fraction.getD [])
    let (minus, e) := exponent.getD (false, 0)
    return (.float (← m.value? negative minus e), rest)

/-- What follows a number stands behind its last part. -/
theorem number?_leaves (negative : Bool) (cs : List Char) :
    Leaves Prod.snd cs (number? negative cs) := by
  refine leaves_bind fun _ => ?_
  refine ((fraction?_leaves _).behind (List.dropWhile_suffix _)).bind fun ⟨_, rest⟩ => ?_
  refine (exponent?_leaves rest).bind fun ⟨_, rest⟩ => ?_
  exact .ite (leaves_bind fun _ => leaves_some (List.suffix_refl rest))
    (leaves_bind fun _ => leaves_some (List.suffix_refl rest))

/-! ## Values -/

/-- Reads a word, and answers what follows. -/
def word? (word : String) (cs : List Char) : Option (List Char) :=
  if word.toList.isPrefixOf cs then some (cs.drop word.length) else none

/-- What follows a word is an end of the text. -/
theorem word?_leaves (word : String) (cs : List Char) : Leaves id cs (word? word cs) :=
  .ite (leaves_some (List.drop_suffix _ cs)) leaves_none

/-- **What follows a word** stands behind it. -/
theorem word?_eq_some {word : String} {cs rest : List Char} (h : word? word cs = some rest) :
    cs = word.toList ++ rest := by
  obtain ⟨hstart, hrest⟩ := Option.ite_none_right_eq_some.1 h
  obtain ⟨after, rfl⟩ := List.isPrefixOf_iff_prefix.1 hstart
  rw [← Option.some.inj hrest, ← String.length_toList, List.drop_left]

mutual

/-- Reads a value inside at most `depth` more lists and objects, and answers it with what
follows. -/
def value? : Nat → Nat → List Char → Option (Setting × List Char)
  | 0, _, _ => none
  | fuel + 1, depth, cs =>
    match cs with
    | '"' :: cs => (text? cs.length cs).map fun (text, rest) => (.text (String.ofList text), rest)
    | '[' :: cs =>
      if depth = 0 then none
      else
        match skip cs with
        | ']' :: rest => some (.list [], rest)
        | cs => (items? fuel (depth - 1) cs).map fun (items, rest) => (.list items, rest)
    | '{' :: cs =>
      if depth = 0 then none
      else
        (members? fuel (depth - 1) (skip cs)).map fun (members, rest) => (.ofEntries members, rest)
    | '-' :: cs => number? true cs
    | 'n' :: _ => (word? "null" cs).map (.null, ·)
    | 't' :: _ => (word? "true" cs).map (.bool true, ·)
    | 'f' :: _ => (word? "false" cs).map (.bool false, ·)
    | cs => number? false cs
termination_by structural fuel => fuel

/-- Reads the values of a list up to its closing bracket, and answers them with what follows. -/
def items? : Nat → Nat → List Char → Option (List Setting × List Char)
  | 0, _, _ => none
  | fuel + 1, depth, cs => do
    let (value, rest) ← value? fuel depth cs
    match skip rest with
    | ']' :: rest => return ([value], rest)
    | ',' :: rest =>
      let (values, rest) ← items? fuel depth (skip rest)
      return (value :: values, rest)
    | _ => none
termination_by structural fuel => fuel

/-- Reads the members of an object up to its closing brace, and answers them with what follows. -/
def members? : Nat → Nat → List Char → Option (List (String × Setting) × List Char)
  | 0, _, _ => none
  | fuel + 1, depth, cs =>
    match cs with
    | '}' :: rest => some ([], rest)
    | cs => moreMembers? fuel depth cs
termination_by structural fuel => fuel

/-- Reads members of an object, one at least, up to its closing brace, and answers them with what
follows. -/
def moreMembers? : Nat → Nat → List Char → Option (List (String × Setting) × List Char)
  | 0, _, _ => none
  | fuel + 1, depth, cs => do
    match cs with
    | '"' :: cs =>
      let (key, rest) ← text? cs.length cs
      match skip rest with
      | ':' :: rest =>
        let (value, rest) ← value? fuel depth (skip rest)
        let member := (String.ofList key, value)
        match skip rest with
        | '}' :: rest => return ([member], rest)
        | ',' :: rest =>
          let (members, rest) ← moreMembers? fuel depth (skip rest)
          return (member :: members, rest)
        | _ => none
      | _ => none
    | _ => none
termination_by structural fuel => fuel

end

mutual

/-- **A value is read from the start,** and what it leaves follows it. -/
theorem value?_leaves (fuel depth : Nat) (cs : List Char) :
    Leaves Prod.snd cs (value? fuel depth cs) := by
  cases fuel with
  | zero => exact leaves_none
  | succ fuel =>
    unfold value?
    split
    case h_1 cs =>
      exact ((text?_leaves _ cs).behind (List.suffix_cons '"' cs)).map fun _ => rfl
    case h_2 cs =>
      refine .behind (.ite leaves_none ?_) ((skip_suffix cs).trans (List.suffix_cons '[' cs))
      split
      case h_1 rest heq =>
        exact heq ▸ leaves_some (List.suffix_cons ']' rest)
      case h_2 => exact (items?_leaves fuel (depth - 1) _).map fun _ => rfl
    case h_3 cs =>
      refine .behind (.ite leaves_none ?_) ((skip_suffix cs).trans (List.suffix_cons '\x7b' cs))
      exact (members?_leaves fuel (depth - 1) _).map fun _ => rfl
    case h_4 cs => exact (number?_leaves true cs).behind (List.suffix_cons '-' cs)
    case h_8 => exact number?_leaves false cs
    all_goals exact (word?_leaves _ _).map fun _ => rfl

/-- What follows the items of a list stands behind its closing bracket. -/
theorem items?_leaves (fuel depth : Nat) (cs : List Char) :
    Leaves Prod.snd cs (items? fuel depth cs) := by
  cases fuel with
  | zero => exact leaves_none
  | succ fuel =>
    unfold items?
    refine (value?_leaves fuel depth cs).bind fun ⟨value, rest⟩ => .behind ?_ (skip_suffix rest)
    dsimp only
    split
    case h_1 rest heq => exact heq ▸ leaves_some (List.suffix_cons ']' rest)
    case h_2 rest heq =>
      refine heq ▸ .bind ((items?_leaves fuel depth (skip rest)).behind ?_)
        fun _ => leaves_some (List.suffix_refl _)
      exact (skip_suffix rest).trans (List.suffix_cons ',' rest)
    case h_3 => exact leaves_none

/-- What follows the members of an object stands behind its closing brace. -/
theorem members?_leaves (fuel depth : Nat) (cs : List Char) :
    Leaves Prod.snd cs (members? fuel depth cs) := by
  cases fuel with
  | zero => exact leaves_none
  | succ fuel =>
    unfold members?
    split
    case h_1 rest => exact leaves_some (List.suffix_cons _ rest)
    case h_2 => exact moreMembers?_leaves fuel depth cs

/-- The same if the object is known to have a member. -/
theorem moreMembers?_leaves (fuel depth : Nat) (cs : List Char) :
    Leaves Prod.snd cs (moreMembers? fuel depth cs) := by
  cases fuel with
  | zero => exact leaves_none
  | succ fuel =>
    unfold moreMembers?
    split
    case h_2 => exact leaves_none
    case h_1 cs =>
      refine .behind (t := cs) (.bind (text?_leaves _ cs) fun ⟨key, rest⟩ => ?_)
        (List.suffix_cons '"' cs)
      refine .behind ?_ (skip_suffix rest)
      dsimp only
      split
      case h_2 => exact leaves_none
      case h_1 rest heq =>
        rw [heq]
        refine .behind ?_ ((skip_suffix rest).trans (List.suffix_cons ':' rest))
        refine (value?_leaves fuel depth _).bind fun ⟨value, rest⟩ => .behind ?_ (skip_suffix rest)
        dsimp only
        split
        case h_1 rest heq => exact heq ▸ leaves_some (List.suffix_cons _ rest)
        case h_2 rest heq =>
          refine heq ▸ .bind ((moreMembers?_leaves fuel depth (skip rest)).behind ?_)
            fun _ => leaves_some (List.suffix_refl _)
          exact (skip_suffix rest).trans (List.suffix_cons ',' rest)
        case h_3 => exact leaves_none

end

/-- The settings of a file; `none` if it is malformed. -/
def settings? (text : String) : Option (List (String × Setting)) := do
  let cs := skip text.toList
  let fuel := 3 * cs.length + 3
  let (settings, rest) ← match cs with
    | '{' :: cs => members? fuel (maxDepth - 1) (skip cs)
    | cs => (value? fuel maxDepth cs).map fun (_, rest) => ([], rest)
  if (skip rest).isEmpty then some settings else none

end Json
end FlashVolume

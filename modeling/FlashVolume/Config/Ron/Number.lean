import FlashVolume.Config.Setting
import FlashVolume.Decimal.Reading
import FlashVolume.Text.Based
import FlashVolume.Text.Place
/-!
# Numbers of RON

Section 10.5 of the specification: what `load` reads in `fsu.ron`, from its numbers on.

```text
number  = [ "+" | "-" ] ( integer | decimal )
integer = [ "0x" | "0o" | "0b" ] digit ( digit | "_" )*
```

An integer with a sign has at most 128 bits with a sign, one without a sign at most 128 without. It
is an integer as a setting if it fits into 64 bits with a sign, and a floating point number
otherwise. What is no integer is read as a decimal.
-/

namespace FlashVolume
namespace Ron

/-- What a decimal consists of. -/
def isDecimalChar (c : Char) : Bool :=
  c.isDigit || c = '.' || c = 'e' || c = 'E' || c = '+' || c = '-'

/-- What an integer consists of: the digits of base sixteen, and `_`. -/
def isIntegerChar (c : Char) : Bool :=
  (Text.digitIn? 16 c).isSome || c = '_'

/-- The value of the digits of an integer. -/
def digits? (base : Nat) (ds : List Char) : Option Nat :=
  if ds.isEmpty ∨ ds.head? = some '_' then none
  else Text.valueIn? base (ds.filter (· ≠ '_'))

/-- **Underscores do not count** behind the first digit. -/
theorem digits?_eq {base : Nat} {d : Char} (h : d ≠ '_') (ds : List Char) :
    digits? base (d :: ds) = Text.valueIn? base (d :: ds.filter (· ≠ '_')) := by
  simp [digits?, h]

/-- **A number is read back from its digits** in each base up to sixteen. -/
theorem digits?_toDigits {base : Nat} (hbase : 1 < base) (hle : base ≤ 16) (n : Nat) :
    digits? base (Nat.toDigits base n) = some n := by
  have hdigit : ∀ c ∈ Nat.toDigits base n, c ≠ '_' :=
    fun _ hc => Text.ne_underscore_of_mem_toDigits hbase hle hc
  obtain ⟨d, ds, hds⟩ := List.exists_cons_of_ne_nil (Nat.toDigits_ne_nil (n := n) (b := base))
  rw [hds] at hdigit
  rw [hds, digits?_eq (hdigit d (by simp)),
    List.filter_eq_self.2 fun c hc => decide_eq_true (hdigit c (by simp [hc])), ← hds,
    Text.valueIn?_toDigits hbase hle]

/-- The base of an integer, and what stands behind its mark. -/
def splitBase : List Char → Nat × List Char
  | '0' :: 'x' :: cs => (16, cs)
  | '0' :: 'o' :: cs => (8, cs)
  | '0' :: 'b' :: cs => (2, cs)
  | cs => (10, cs)

/-- The digits of an integer stand behind the mark of its base. -/
theorem splitBase_suffix (cs : List Char) : (splitBase cs).2 <:+ cs := by
  unfold splitBase
  split
  case h_4 => exact List.suffix_refl _
  all_goals exact (List.suffix_cons ..).trans (List.suffix_cons ..)

/-- A base that is marked has digits of its own: all of them are digits of base sixteen. -/
theorem splitBase_base (cs : List Char) : 1 < (splitBase cs).1 ∧ (splitBase cs).1 ≤ 16 := by
  unfold splitBase
  split <;> simp

/-- An integer as a setting. -/
def ofInteger (n : Int) : Setting :=
  if -(Word.maxSigned64 + 1 : Int) ≤ n ∧ n ≤ Word.maxSigned64 then .int n
  else .float (.ofQuotient (n < 0) n.natAbs 1)

/-- Reads an integer, and answers it with what follows. -/
def integer? (cs : List Char) : Option (Setting × List Char) := do
  let signed := cs.head? = some '+' ∨ cs.head? = some '-'
  let (negative, unsigned) := Binary64.splitSign cs
  let (base, rest) := splitBase unsigned
  let n ← digits? base (rest.takeWhile isIntegerChar)
  let bound :=
    if negative then Word.maxSigned128 + 1
    else if signed then Word.maxSigned128
    else Word.maxUnsigned128
  if n ≤ bound then
    some (ofInteger (if negative then -(n : Int) else n), rest.dropWhile isIntegerChar)
  else none

/-- What follows an integer stands behind its digits. -/
theorem integer?_leaves (cs : List Char) : Leaves Prod.snd cs (integer? cs) := by
  refine leaves_bind fun _ => .ite (leaves_some ?_) leaves_none
  exact (List.dropWhile_suffix _).trans ((splitBase_suffix _).trans (Binary64.splitSign_suffix cs))

/-- Reads a decimal, and answers it with what follows. -/
def decimal? (cs : List Char) : Option (Setting × List Char) :=
  (Binary64.ofText? (String.ofList (cs.takeWhile isDecimalChar))).map fun x =>
    (.float x, cs.dropWhile isDecimalChar)

/-- What follows a decimal stands behind its last character. -/
theorem decimal?_leaves (cs : List Char) : Leaves Prod.snd cs (decimal? cs) :=
  leaves_map fun _ => List.dropWhile_suffix _

/-- Reads a number, and answers it with what follows. It starts with a sign, a digit or a point, and
is a decimal if more of it can be read as one. -/
def number? (cs : List Char) : Option (Setting × List Char) :=
  let (_, unsigned) := Binary64.splitSign cs
  if ¬ cs.head?.any fun c => c.isDigit ∨ c = '+' ∨ c = '-' ∨ c = '.' then none
  else if (unsigned.takeWhile isDecimalChar).length > (unsigned.takeWhile isIntegerChar).length then
    decimal? cs
  else
    match integer? cs with
    | some read => some read
    | none => decimal? cs

/-- What follows a number stands behind it, whichever of the two it is read as. -/
theorem number?_leaves (cs : List Char) : Leaves Prod.snd cs (number? cs) := by
  refine .ite leaves_none (.ite (decimal?_leaves cs) ?_)
  split
  case h_1 read heq => exact leaves_some (integer?_leaves cs read heq)
  case h_2 => exact decimal?_leaves cs

end Ron
end FlashVolume

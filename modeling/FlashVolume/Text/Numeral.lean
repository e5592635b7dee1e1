import FlashVolume.Word
/-!
# Decimal numerals

Numerals of ASCII digits. An unsigned numeral may start with `+`, a signed one with `+` or `-`;
leading zeros are allowed, and a value outside the word is no numeral.
-/

namespace FlashVolume
namespace Text

/-- The value of a run of digits, most significant first. -/
def digitsValue (ds : List Char) : Nat :=
  ds.foldl (fun n d => n * 10 + (d.toNat - 48)) 0

/-- The value of some digits is that of the number they write. -/
theorem digitsValue_eq (ds : List Char) : digitsValue ds = Nat.ofDigitChars 10 ds 0 := by
  rw [Nat.ofDigitChars_eq_foldl]
  simp only [digitsValue, Nat.mul_comm]
  rfl

/-- **A number is the value of its digits.** -/
theorem digitsValue_toDigits (n : Nat) : digitsValue (Nat.toDigits 10 n) = n := by
  rw [digitsValue_eq, Nat.ofDigitChars_ten_toDigits]

/-- The value of a numeral that consists of digits only. -/
def digits? (ds : List Char) : Option Nat :=
  if ds ≠ [] ∧ ds.all Char.isDigit then some (digitsValue ds) else none

/-- **A numeral is some digits,** and stands for the number they write. -/
theorem digits?_eq_some_iff {ds : List Char} {n : Nat} :
    digits? ds = some n ↔
      ds ≠ [] ∧ (∀ c ∈ ds, c.isDigit = true) ∧ Nat.ofDigitChars 10 ds 0 = n := by
  rw [digits?, digitsValue_eq, Option.ite_none_right_eq_some, Option.some.injEq, List.all_eq_true,
    and_assoc]

/-- A number is written in digits. -/
theorem isDigit_of_mem_toDigits {n : Nat} {c : Char} (h : c ∈ Nat.toDigits 10 n) :
    c.isDigit = true :=
  Nat.isDigit_of_mem_toDigits (by decide) (by decide) h

/-- **A number is read back from its digits.** -/
theorem digits?_toDigits (n : Nat) : digits? (Nat.toDigits 10 n) = some n :=
  digits?_eq_some_iff.2 ⟨Nat.toDigits_ne_nil, fun _ hc => isDigit_of_mem_toDigits hc,
    Nat.ofDigitChars_ten_toDigits⟩

/-- A numeral of at most `bound`, with an optional `+`. -/
def natUpTo? (bound : Nat) (cs : List Char) : Option Nat :=
  (digits? (if cs.head? = some '+' then cs.tail else cs)).filter (· ≤ bound)

/-- A 64-bit unsigned numeral, with an optional `+`. -/
def unsigned64? (s : String) : Option Nat :=
  natUpTo? Word.maxUnsigned64 s.toList

/-- A 64-bit signed numeral, with an optional sign. -/
def signed64? (s : String) : Option Int :=
  match s.toList with
  | '-' :: ds => ((digits? ds).filter (· ≤ Word.maxSigned64 + 1)).map fun n => -(n : Int)
  | cs => (natUpTo? Word.maxSigned64 cs).map Int.ofNat

end Text
end FlashVolume

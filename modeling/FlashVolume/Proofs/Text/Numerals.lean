import FlashVolume.Proofs.Text.Words
import FlashVolume.Text.Numeral
import Mathlib.Data.Nat.Digits.Lemmas
/-!
# Decimal numerals are read back

A number that fits the word is read back from its decimal digits, and a numeral that is read never
stands for a number that does not fit.
-/

namespace FlashVolume
namespace Text

/-- A digit is no blank. -/
theorem isBlank_of_isDigit {c : Char} (h : c.isDigit = true) : isBlank c = false := by
  simp only [Char.isDigit, Bool.and_eq_true, decide_eq_true_eq, UInt32.le_iff_toNat_le] at h
  have hlow : 48 ≤ c.toNat := h.1
  have hhigh : c.toNat ≤ 57 := h.2
  simp only [isBlank, blankRanges, List.any_cons, List.any_nil, Bool.or_false, Bool.or_eq_false_iff,
    Bool.and_eq_false_iff, decide_eq_false_iff_not]
  omega

/-- The digits of a number are a word. -/
theorem isWord_toString (n : Nat) : IsWord (toString n).toList := by
  rw [Nat.toString_eq_ofList_toDigits, String.toList_ofList]
  exact ⟨Nat.toDigits_ne_nil, fun c hc => isBlank_of_isDigit (isDigit_of_mem_toDigits hc)⟩

/-- **A number that fits is read back from its digits.** -/
theorem natUpTo?_toDigits {bound n : Nat} (h : n ≤ bound) :
    natUpTo? bound (Nat.toDigits 10 n) = some n := by
  have hsign : (Nat.toDigits 10 n).head? ≠ some '+' := fun hplus =>
    absurd (isDigit_of_mem_toDigits (List.mem_of_mem_head? hplus)) (by decide)
  rw [natUpTo?, if_neg hsign, digits?_toDigits]
  simpa using h

/-- A number of 64 bits is read back from its digits. -/
theorem unsigned64?_toString {n : Nat} (h : n ≤ Word.maxUnsigned64) :
    unsigned64? (toString n) = some n := by
  rw [unsigned64?, Nat.toString_eq_ofList_toDigits, String.toList_ofList]
  exact natUpTo?_toDigits h

/-- **What is read fits.** -/
theorem le_of_unsigned64? {s : String} {n : Nat} (h : unsigned64? s = some n) :
    n ≤ Word.maxUnsigned64 := by
  have hkept := (Option.filter_eq_some_iff.1 h).2
  simpa using hkept

end Text
end FlashVolume

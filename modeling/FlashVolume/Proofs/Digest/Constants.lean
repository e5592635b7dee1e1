import FlashVolume.Digest.Sha256
import Mathlib.Analysis.SpecialFunctions.Pow.Real
import Mathlib.Data.Nat.Nth
import Mathlib.Data.Nat.Prime.Basic
/-!
# The constants of SHA-256

The constants are beginnings of fractional parts: those of the cube roots of the first 64 primes for
the rounds, those of the square roots of the first eight for the words before the first block. That
`k` is the beginning of such a fractional part can be told from powers of numbers alone
(`IsRootFraction`), and so a table is compared with the roots.
-/

namespace FlashVolume
namespace Sha256

/-- The first 32 bits of the fractional part. -/
noncomputable def fractionBits (x : ℝ) : BitVec 32 :=
  .ofNat 32 ⌊Int.fract x * 2 ^ 32⌋₊

/-- The `n`-th root of `p` begins with the 32 bits `k` behind the point. -/
def IsRootFraction (n p k : Nat) : Prop :=
  k < 2 ^ 32 ∧ ∃ c < 8, (c * 2 ^ 32 + k) ^ n ≤ p * (2 ^ 32) ^ n ∧
    p * (2 ^ 32) ^ n < (c * 2 ^ 32 + k + 1) ^ n

instance (n p k : Nat) : Decidable (IsRootFraction n p k) :=
  inferInstanceAs (Decidable (_ ∧ _))

/-- **A root begins as its powers say.** -/
theorem fractionBits_eq {n p k : Nat} {x : ℝ} (hn : n ≠ 0) (hx : 0 ≤ x) (hroot : x ^ n = p)
    (h : IsRootFraction n p k) : fractionBits x = .ofNat 32 k := by
  obtain ⟨hk, c, -, hlow, hhigh⟩ := h
  have hpower : (x * 2 ^ 32) ^ n = ((p * (2 ^ 32) ^ n : ℕ) : ℝ) := by
    rw [mul_pow, hroot, Nat.cast_mul, Nat.cast_pow]
    norm_num
  have hle : (c : ℝ) * 2 ^ 32 + k ≤ x * 2 ^ 32 := by
    refine le_of_pow_le_pow_left₀ hn (by positivity) ?_
    rw [hpower]
    exact_mod_cast hlow
  have hlt : x * 2 ^ 32 < (c : ℝ) * 2 ^ 32 + k + 1 := by
    refine lt_of_pow_lt_pow_left₀ n (by positivity) ?_
    rw [hpower]
    exact_mod_cast hhigh
  have hk' : (k : ℝ) + 1 ≤ 2 ^ 32 := by exact_mod_cast hk
  have hk0 : (0 : ℝ) ≤ k := k.cast_nonneg
  have hfloor : ⌊x⌋ = c := by
    rw [Int.floor_eq_iff]
    constructor <;> push_cast <;> nlinarith
  have hfract : Int.fract x = x - c := by
    rw [Int.fract, hfloor]
    rfl
  have hbits : ⌊Int.fract x * 2 ^ 32⌋₊ = k := by
    rw [hfract, Nat.floor_eq_iff (by nlinarith)]
    constructor <;> linarith
  rw [fractionBits, hbits]

/-! ### The first primes -/

/-- The first 64 primes. -/
def primes : List Nat :=
  [2, 3, 5, 7, 11, 13, 17, 19, 23, 29, 31, 37, 41, 43, 47, 53, 59, 61, 67, 71, 73, 79, 83, 89, 97,
   101, 103, 107, 109, 113, 127, 131, 137, 139, 149, 151, 157, 163, 167, 173, 179, 181, 191, 193,
   197, 199, 211, 223, 227, 229, 233, 239, 241, 251, 257, 263, 269, 271, 277, 281, 283, 293, 307,
   311]

/-- Below 361, it is enough to divide by the primes below 19. -/
def PassesTrials (n : Nat) : Prop :=
  2 ≤ n ∧ ∀ d ∈ [2, 3, 5, 7, 11, 13, 17], d ∣ n → d = n

instance : DecidablePred PassesTrials := fun _ =>
  inferInstanceAs (Decidable (_ ∧ _))

/-- The trials decide primality there: a smallest factor is at most the square root. -/
theorem prime_iff_passesTrials {n : Nat} (hn : n < 361) : n.Prime ↔ PassesTrials n := by
  constructor
  · intro hprime
    refine ⟨hprime.two_le, fun d hd hdvd => (hprime.eq_one_or_self_of_dvd d hdvd).resolve_left ?_⟩
    rintro rfl
    exact absurd hd (by decide)
  · rintro ⟨htwo, hall⟩
    by_contra hprime
    have hsquare := Nat.minFac_sq_le_self (by omega) hprime
    have hless : n.minFac < 19 := by nlinarith
    have hfactor := Nat.minFac_prime (n := n) (by omega)
    have hsmall : ∀ d < 19, d.Prime → d ∈ [2, 3, 5, 7, 11, 13, 17] := by decide
    rw [hall _ (hsmall _ hless hfactor) n.minFac_dvd] at hfactor
    exact hprime hfactor

/-- So the primes there can be counted by the trials. -/
theorem count_prime_eq {n : Nat} (hn : n ≤ 361) :
    Nat.count Nat.Prime n = Nat.count PassesTrials n := by
  rw [Nat.count_eq_card_filter_range, Nat.count_eq_card_filter_range]
  refine congrArg Finset.card (Finset.filter_congr fun m hm => ?_)
  exact prime_iff_passesTrials ((Finset.mem_range.1 hm).trans_le hn)

/-- **The list holds the first primes, in order.** -/
theorem nth_prime_eq {t : Nat} (ht : t < primes.length) : Nat.nth Nat.Prime t = primes[t] := by
  have htable : ∀ t (ht : t < primes.length), primes[t] < 361 ∧ PassesTrials primes[t] ∧
      Nat.count PassesTrials primes[t] = t := by
    decide +kernel
  obtain ⟨hless, hpasses, hcount⟩ := htable t ht
  have hnth := Nat.nth_count ((prime_iff_passesTrials hless).2 hpasses)
  rwa [count_prime_eq hless.le, hcount] at hnth

/-! ### The tables -/

/-- The first 32 bits of the fractional part of the `n`-th root of the `t`-th prime. -/
noncomputable def rootBits (n t : Nat) : BitVec 32 :=
  fractionBits ((Nat.nth Nat.Prime t : ℝ) ^ (n⁻¹ : ℝ))

/-- The bits of a root are known from the integer that bounds it on both sides. -/
theorem rootBits_eq {n t k : Nat} (hn : n ≠ 0) (ht : t < primes.length)
    (h : IsRootFraction n primes[t] k) : rootBits n t = .ofNat 32 k := by
  rw [rootBits, nth_prime_eq ht]
  exact fractionBits_eq hn (by positivity) (Real.rpow_inv_natCast_pow (by positivity) hn) h

/-- A table of beginnings of roots. -/
theorem map_eq_rootBits {n : Nat} (hn : n ≠ 0) {table : List UInt32}
    (hlength : table.length ≤ primes.length)
    (h : ∀ t (ht : t < table.length), IsRootFraction n primes[t] table[t].toNat) :
    table.map UInt32.toBitVec = (List.range table.length).map (rootBits n) := by
  refine List.ext_getElem (by simp) fun t ht _ => ?_
  rw [List.length_map] at ht
  rw [List.getElem_map, List.getElem_map, List.getElem_range,
    rootBits_eq hn (ht.trans_le hlength) (h t ht)]
  exact BitVec.eq_of_toNat_eq (by simp)

/-- **The round constants are the beginnings of the cube roots.** -/
theorem roundConstants_eq :
    roundConstants.map UInt32.toBitVec = (List.range 64).map (rootBits 3) :=
  map_eq_rootBits (by decide) (by decide) (by decide +kernel)

/-- **The words before the first block are the beginnings of the square roots.** -/
theorem initialWords_eq :
    let s := initialWords
    [s.a, s.b, s.c, s.d, s.e, s.f, s.g, s.h].map UInt32.toBitVec =
      (List.range 8).map (rootBits 2) :=
  map_eq_rootBits (by decide) (by decide) (by decide +kernel)

end Sha256
end FlashVolume

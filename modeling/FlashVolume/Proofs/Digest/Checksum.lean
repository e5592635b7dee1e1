import FlashVolume.Digest.Crc32
import FlashVolume.Proofs.Digest.Bits
import Mathlib.Algebra.CharP.Two
import Mathlib.Algebra.Field.ZMod
import Mathlib.RingTheory.AdjoinRoot
/-!
# The checksum of a message is the remainder of a division

The CRC-32 that section 10.6 of the specification asks for.

CRC-32 takes the bits of a message for the coefficients of a polynomial over the field of two
elements, that of the highest power first. The checksum is what is left when the polynomial,
multiplied by `X ^ 32`, is divided by the generator. So that zeros in front of a message count, its
first 32 bits are complemented, and so are those of the remainder.

A register is a polynomial as well (`Crc32.polynomial`), with its lowest bit for the highest power:
shifting it multiplies by `X`, and what is taken away when a bit falls out is the generator. Modulo
the generator, a register that a byte is pushed to is multiplied by `X ^ 8`, and the byte is added
where `X ^ 32` stands. In the end there is no need to divide: the polynomial of a register has a
degree below 32, and so is its own remainder.
-/

namespace FlashVolume
namespace Crc32
open Polynomial

namespace Standard

/-! ### The standard -/

/-- The polynomial of which the bits are the coefficients, that of the highest power first. -/
noncomputable def polynomial (bits : List Bool) : (ZMod 2)[X] :=
  bits.foldl (fun p b => p * X + (b.toNat : (ZMod 2)[X])) 0

/-- The coefficients of the powers below `w`, that of the highest power first. -/
noncomputable def coefficients (w : Nat) (p : (ZMod 2)[X]) : List Bool :=
  (List.range w).map fun i => p.coeff (w - 1 - i) = 1

/-- The generator. -/
noncomputable def generator : (ZMod 2)[X] :=
  X ^ 32 + X ^ 26 + X ^ 23 + X ^ 22 + X ^ 16 + X ^ 12 + X ^ 11 + X ^ 10 + X ^ 8 + X ^ 7 + X ^ 5 +
    X ^ 4 + X ^ 2 + X + 1

/-- A message with 32 zeros behind it, the first 32 bits complemented. -/
def dividend (message : List Bool) : List Bool :=
  let padded := message ++ List.replicate 32 false
  (padded.take 32).map not ++ padded.drop 32

/-- The complement of the remainder. -/
noncomputable def checksum (message : List Bool) : List Bool :=
  (coefficients 32 (polynomial (dividend message) %ₘ generator)).map not

/-! ### Polynomials of bits -/

/-- One more bit multiplies by `X` and adds itself. -/
theorem polynomial_concat (bits : List Bool) (b : Bool) :
    polynomial (bits ++ [b]) = polynomial bits * X + (b.toNat : (ZMod 2)[X]) :=
  List.foldl_concat ..

/-- Bits that come first are the higher coefficients. -/
theorem polynomial_append (x y : List Bool) :
    polynomial (x ++ y) = polynomial x * X ^ y.length + polynomial y := by
  induction y using List.reverseRecOn with
  | nil => simp [polynomial]
  | append_singleton y b ih =>
    rw [← List.append_assoc, polynomial_concat, polynomial_concat, ih, List.length_append,
      List.length_singleton]
    ring

/-- The first bit is the leading coefficient. -/
theorem polynomial_cons (b : Bool) (bits : List Bool) :
    polynomial (b :: bits) = (b.toNat : (ZMod 2)[X]) * X ^ bits.length + polynomial bits := by
  have hfirst : polynomial [b] = (b.toNat : (ZMod 2)[X]) := by
    rw [← List.nil_append [b], polynomial_concat, polynomial, List.foldl_nil, zero_mul, zero_add]
  rw [← List.singleton_append, polynomial_append, hfirst]

/-- Zero bits are the zero polynomial. -/
theorem polynomial_replicate_false (n : Nat) : polynomial (List.replicate n false) = 0 := by
  induction n with
  | zero => rfl
  | succ n ih => simp [List.replicate_succ, polynomial_cons, ih]

/-- Exclusive or adds in a field of two elements. -/
theorem toNat_xor (a b : Bool) : ((a ^^ b).toNat : (ZMod 2)[X]) = a.toNat + b.toNat := by
  cases a <;> cases b <;> simp [CharTwo.add_self_eq_zero]

/-- Complementing adds ones. -/
theorem polynomial_map_not (bits : List Bool) :
    polynomial (bits.map not) =
      polynomial bits + polynomial (List.replicate bits.length true) := by
  induction bits with
  | nil => simp [polynomial]
  | cons b bits ih =>
    rw [List.map_cons, List.length_cons, List.replicate_succ, polynomial_cons, polynomial_cons,
      polynomial_cons, ih, ← Bool.xor_true b, toNat_xor, List.length_map, List.length_replicate]
    ring

/-- Adding numbers without carry adds polynomials. -/
theorem polynomial_ofNumberLow_xor (w n m : Nat) :
    polynomial (Bits.ofNumberLow w (n ^^^ m)) =
      polynomial (Bits.ofNumberLow w n) + polynomial (Bits.ofNumberLow w m) := by
  induction w with
  | zero => simp [Bits.ofNumberLow, polynomial]
  | succ w ih =>
    simp only [Bits.ofNumberLow_concat, polynomial_concat, ih, Nat.testBit_xor, toNat_xor]
    ring

/-- A polynomial has fewer powers than it has bits. -/
theorem degree_polynomial_lt (bits : List Bool) : (polynomial bits).degree < bits.length := by
  rw [← mem_degreeLT]
  induction bits with
  | nil => exact Submodule.zero_mem _
  | cons b bits ih =>
    have hpower : (X ^ bits.length : (ZMod 2)[X]) ∈ degreeLT (ZMod 2) (bits.length + 1) :=
      mem_degreeLT.2 ((degree_X_pow_le _).trans_lt (by exact_mod_cast bits.length.lt_succ_self))
    rw [polynomial_cons, ← nsmul_eq_mul]
    exact Submodule.add_mem _ (nsmul_mem hpower _) (degreeLT_mono (Nat.le_succ _) ih)

/-- The leading coefficient comes first. -/
theorem coefficients_succ (w : Nat) (p : (ZMod 2)[X]) :
    coefficients (w + 1) p = decide (p.coeff w = 1) :: coefficients w p := by
  rw [coefficients, List.range_succ_eq_map, List.map_cons, List.map_map]
  refine congrArg _ (List.map_congr_left fun i _ => ?_)
  rw [Function.comp_apply, show w + 1 - 1 - i.succ = w - 1 - i by omega]

/-- The coefficients are the bits. -/
theorem coefficients_polynomial (bits : List Bool) :
    coefficients bits.length (polynomial bits) = bits := by
  induction bits with
  | nil => rfl
  | cons b bits ih =>
    have hhigh : (polynomial bits).coeff bits.length = 0 :=
      coeff_eq_zero_of_degree_lt (degree_polynomial_lt bits)
    have hlow : coefficients bits.length (polynomial (b :: bits)) =
        coefficients bits.length (polynomial bits) := by
      refine List.map_congr_left fun i hi => ?_
      have hne : bits.length - 1 - i ≠ bits.length := by
        have := List.mem_range.1 hi
        omega
      rw [polynomial_cons, coeff_add, ← nsmul_eq_mul, coeff_smul, coeff_X_pow, if_neg hne,
        smul_zero, zero_add]
    rw [List.length_cons, coefficients_succ, hlow, ih, polynomial_cons, coeff_add, hhigh,
      ← nsmul_eq_mul, coeff_smul, coeff_X_pow_self, add_zero]
    cases b <;> simp

/-! ### The division -/

/-- The generator, but for its highest power, is the mask of the registers. -/
theorem generator_eq : generator = X ^ 32 + polynomial (Bits.ofNumberLow 32 0xEDB88320) := by
  have hbits : Bits.ofNumberLow 32 0xEDB88320 =
      [false, false, false, false, false, true, false, false, true, true, false, false, false,
       false, false, true, false, false, false, true, true, true, false, true, true, false, true,
       true, false, true, true, true] := by
    decide
  rw [hbits, generator]
  simp only [polynomial, List.foldl_cons, List.foldl_nil, Bool.toNat_true, Bool.toNat_false,
    Nat.cast_one, Nat.cast_zero]
  ring

/-- The generator has degree 32, one more than the register holds. -/
theorem degree_generator : generator.degree = 32 := by
  have hlow : (polynomial (Bits.ofNumberLow 32 0xEDB88320)).degree <
      (X ^ 32 : (ZMod 2)[X]).degree := by
    rw [degree_X_pow]
    exact degree_polynomial_lt _
  rw [generator_eq, degree_add_eq_left_of_degree_lt hlow, degree_X_pow]
  rfl

/-- The generator is monic, so division by it leaves a remainder. -/
theorem monic_generator : generator.Monic := by
  rw [generator_eq]
  exact monic_X_pow_add (degree_polynomial_lt _)

/-- Complementing the first 32 bits adds ones in front. -/
theorem polynomial_dividend (message : List Bool) :
    polynomial (dividend message) =
      polynomial (List.replicate 32 true) * X ^ message.length + polynomial message * X ^ 32 := by
  have hpadded : polynomial (message ++ List.replicate 32 false) = polynomial message * X ^ 32 := by
    rw [polynomial_append, polynomial_replicate_false, add_zero, List.length_replicate]
  have hfirst : ((message ++ List.replicate 32 false).take 32).length = 32 := by simp
  have hrest : ((message ++ List.replicate 32 false).drop 32).length = message.length := by simp
  rw [dividend, polynomial_append, polynomial_map_not, hfirst, hrest, ← hpadded]
  conv_rhs =>
    rw [← List.take_append_drop 32 (message ++ List.replicate 32 false), polynomial_append, hrest]
  ring

end Standard

/-! ### Registers -/

/-- The polynomial of a register, whose lowest bit is the coefficient of the highest power. -/
noncomputable def polynomial (r : UInt32) : (ZMod 2)[X] :=
  Standard.polynomial (Bits.ofNumberLow 32 r.toNat)

/-- Exclusive or of two registers adds their polynomials. -/
theorem polynomial_xor (r s : UInt32) : polynomial (r ^^^ s) = polynomial r + polynomial s := by
  rw [polynomial, UInt32.toNat_xor, Standard.polynomial_ofNumberLow_xor, polynomial, polynomial]

/-- A byte enters the register at its highest powers. -/
theorem polynomial_toUInt32 (b : UInt8) :
    polynomial b.toUInt32 = Standard.polynomial (Bits.ofNumberLow 8 b.toNat) * X ^ 24 := by
  rw [polynomial, UInt8.toNat_toUInt32, Bits.ofNumberLow_add_of_lt b.toNat_lt 24,
    Standard.polynomial_append, Standard.polynomial_replicate_false, add_zero,
    List.length_replicate]

/-- A polynomial has fewer powers than it has bits. -/
theorem degree_polynomial_lt (r : UInt32) :
    (polynomial r).degree < Standard.generator.degree := by
  rw [Standard.degree_generator]
  simpa [polynomial] using Standard.degree_polynomial_lt (Bits.ofNumberLow 32 r.toNat)

/-- The bit that falls out of a register was the coefficient of the highest power. -/
theorem polynomial_shiftRight (r : UInt32) :
    polynomial (r >>> 1) =
      polynomial r * X + ((r.toNat.testBit 0).toNat : (ZMod 2)[X]) * X ^ 32 := by
  have hshift : (r >>> 1).toNat = r.toNat >>> 1 := UInt32.toNat_shiftRight r 1
  have hlast : (r.toNat >>> 1).testBit 31 = false := by
    rw [Nat.testBit_shiftRight]
    exact Nat.testBit_lt_two_pow r.toNat_lt
  have hafter : polynomial (r >>> 1) =
      Standard.polynomial (Bits.ofNumberLow 31 (r.toNat >>> 1)) * X := by
    rw [polynomial, hshift, Bits.ofNumberLow_concat, hlast, Standard.polynomial_concat,
      Bool.toNat_false, Nat.cast_zero, add_zero]
  have hbefore : polynomial r = ((r.toNat.testBit 0).toNat : (ZMod 2)[X]) * X ^ 31 +
      Standard.polynomial (Bits.ofNumberLow 31 (r.toNat >>> 1)) := by
    rw [polynomial, Bits.ofNumberLow_succ, Standard.polynomial_cons, Bits.length_ofNumberLow]
  have htwice := CharTwo.add_self_eq_zero (((r.toNat.testBit 0).toNat : (ZMod 2)[X]) * X ^ 32)
  rw [hafter, hbefore]
  linear_combination -htwice

/-- **A shift multiplies by `X`, but for a multiple of the generator.** -/
theorem polynomial_shift (r : UInt32) :
    polynomial (shift r) =
      polynomial r * X + ((r.toNat.testBit 0).toNat : (ZMod 2)[X]) * Standard.generator := by
  have hodd : r &&& 1 = 1 ↔ r.toNat.testBit 0 = true := by
    rw [← UInt32.toNat_inj, UInt32.toNat_and, Nat.testBit_zero, decide_eq_true_iff]
    exact Nat.and_one_is_mod _ ▸ Iff.rfl
  have hmask : (0xEDB88320 : UInt32).toNat = 0xEDB88320 := rfl
  rw [shift]
  split
  · next h =>
    rw [polynomial_xor, polynomial_shiftRight, hodd.1 h, Standard.generator_eq, ← hmask,
      ← polynomial, Bool.toNat_true, Nat.cast_one, one_mul, one_mul, add_assoc]
  · next h =>
    rw [polynomial_shiftRight, Bool.eq_false_of_not_eq_true (mt hodd.2 h), Bool.toNat_false,
      Nat.cast_zero, zero_mul, zero_mul]

/-- The ring in which the generator is zero. -/
noncomputable abbrev residue : (ZMod 2)[X] →+* AdjoinRoot Standard.generator :=
  AdjoinRoot.mk Standard.generator

/-- Shifts multiply by powers of `X`, modulo the generator. -/
theorem residue_iterate_shift (n : Nat) (r : UInt32) :
    residue (polynomial (shift^[n] r)) = residue (polynomial r * X ^ n) := by
  induction n with
  | zero => rw [Function.iterate_zero_apply, pow_zero, mul_one]
  | succ n ih =>
    rw [Function.iterate_succ_apply', polynomial_shift, map_add, map_mul, map_mul, ih,
      AdjoinRoot.mk_self, mul_zero, add_zero, ← map_mul, pow_succ, mul_assoc]

/-- **A byte is added where `X ^ 32` stands.** -/
theorem residue_push (r : UInt32) (b : UInt8) :
    residue (polynomial (push r b)) = residue (polynomial r * X ^ 8 +
      Standard.polynomial (Bits.ofNumberLow 8 b.toNat) * X ^ 32) := by
  have hpush : push r b = shift^[8] (r ^^^ b.toUInt32) := rfl
  rw [hpush, residue_iterate_shift, polynomial_xor, polynomial_toUInt32, add_mul, mul_assoc,
    ← pow_add]

/-- **A message is added there as a whole,** and multiplies the register by a power of `X`. -/
theorem residue_absorb (r : UInt32) (message : Bytes) :
    residue (polynomial (absorb r message)) =
      residue (polynomial r * X ^ (8 * message.length) +
        Standard.polynomial (Bits.ofBytesLow message) * X ^ 32) := by
  induction message generalizing r with
  | nil => simp [absorb, Bits.ofBytesLow, Standard.polynomial]
  | cons b message ih =>
    have hbits : Bits.ofBytesLow (b :: message) =
        Bits.ofNumberLow 8 b.toNat ++ Bits.ofBytesLow message := List.flatMap_cons
    have hpush := residue_push r b
    rw [absorb, List.foldl_cons, ← absorb, ih, hbits, Standard.polynomial_append,
      Bits.length_ofBytesLow, List.length_cons]
    simp only [map_add, map_mul, map_pow] at hpush ⊢
    rw [hpush]
    ring

/-- **The register is the remainder.** -/
theorem polynomial_absorb_start (message : Bytes) :
    polynomial (absorb start message) =
      Standard.polynomial (Standard.dividend (Bits.ofBytesLow message)) %ₘ Standard.generator := by
  have hstart : polynomial start = Standard.polynomial (List.replicate 32 true) := rfl
  have hresidue := residue_absorb start message
  rw [hstart, ← Bits.length_ofBytesLow, ← Standard.polynomial_dividend,
    AdjoinRoot.mk_eq_mk] at hresidue
  calc polynomial (absorb start message)
      = polynomial (absorb start message) %ₘ Standard.generator :=
        ((modByMonic_eq_self_iff Standard.monic_generator).2 (degree_polynomial_lt _)).symm
    _ = Standard.polynomial (Standard.dividend (Bits.ofBytesLow message)) %ₘ Standard.generator :=
        modByMonic_eq_of_dvd_sub Standard.monic_generator hresidue

/-- The checksum is the register with every bit turned. -/
theorem ofNumberLow_finish (r : UInt32) :
    Bits.ofNumberLow 32 (finish r).toNat = (Bits.ofNumberLow 32 r.toNat).map not := by
  rw [Bits.ofNumberLow, Bits.ofNumberLow, List.map_map]
  refine List.map_congr_left fun i hi => ?_
  have hlt := List.mem_range.1 hi
  rw [finish, Function.comp_apply, ← UInt32.toNat_toBitVec, ← UInt32.toNat_toBitVec,
    BitVec.testBit_toNat, BitVec.testBit_toNat, UInt32.toBitVec_not, BitVec.getLsbD_not,
    decide_eq_true hlt, Bool.true_and]

/-- **The checksum is that of the standard, the lowest bit first.** -/
theorem ofNumberLow_checksum (message : Bytes) :
    Bits.ofNumberLow 32 (checksum message).toNat =
      Standard.checksum (Bits.ofBytesLow message) := by
  have hregister := Standard.coefficients_polynomial
    (Bits.ofNumberLow 32 (absorb start message).toNat)
  rw [Bits.length_ofNumberLow, ← polynomial, polynomial_absorb_start] at hregister
  rw [Standard.checksum, hregister, checksum, ofNumberLow_finish]

/-- The check value is that of the digits from one to nine. -/
example : checksum [0x31, 0x32, 0x33, 0x34, 0x35, 0x36, 0x37, 0x38, 0x39] = 0xCBF43926 := by
  decide +kernel

end Crc32
end FlashVolume

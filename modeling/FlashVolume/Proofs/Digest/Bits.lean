import FlashVolume.Text.Utf8
import Mathlib.Algebra.Ring.Nat
import Mathlib.Data.Nat.Bits
/-!
# Bits of bytes

A standard speaks of the bits of a message, and a program has its bytes. Which bit of a byte comes
first is for the standard to say, and so there are two readings of bytes: `ofBytes` takes the
highest bit of each first, `ofBytesLow` the lowest. `group` cuts bits into words of one width, the
bits of each taken as binary digits, the highest first.
-/

namespace FlashVolume
namespace Bits

/-- The last `w` binary digits of a number, the highest first. -/
def ofNumber (w n : Nat) : List Bool :=
  (List.range w).map fun i => n.testBit (w - 1 - i)

/-- The number of which the bits are the binary digits, the highest first. -/
def toNumber (bits : List Bool) : Nat :=
  bits.foldl (fun n b => 2 * n + b.toNat) 0

/-- The bits of bytes, the highest of each byte first. -/
def ofBytes (bytes : Bytes) : List Bool :=
  bytes.flatMap fun b => ofNumber 8 b.toNat

/-- The last `w` binary digits of a number, the lowest first. -/
def ofNumberLow (w n : Nat) : List Bool :=
  (List.range w).map n.testBit

/-- The bits of bytes, the lowest of each byte first. -/
def ofBytesLow (bytes : Bytes) : List Bool :=
  bytes.flatMap fun b => ofNumberLow 8 b.toNat

/-- The `i`-th group of `w` bits, as a word. -/
def group (w : Nat) (bits : List Bool) (i : Nat) : BitVec w :=
  .ofNat w (toNumber ((bits.drop (w * i)).take w))

/-! ### Digits -/

/-- A number has the bits it is given room for. -/
@[simp] theorem length_ofNumber (w n : Nat) : (ofNumber w n).length = w := by
  simp [ofNumber]

/-- The higher digits of a number come before the lower ones. -/
theorem ofNumber_add (v w n : Nat) :
    ofNumber (v + w) n = ofNumber v (n >>> w) ++ ofNumber w n := by
  rw [ofNumber, List.range_add, List.map_append, ofNumber, ofNumber, List.map_map]
  congr 1
  · refine List.map_congr_left fun i hi => ?_
    have hlt := List.mem_range.1 hi
    rw [Nat.testBit_shiftRight]
    congr 1
    omega
  · refine List.map_congr_left fun i hi => ?_
    show n.testBit (v + w - 1 - (v + i)) = n.testBit (w - 1 - i)
    congr 1
    omega

/-- Digits that are not asked for do not count. -/
theorem ofNumber_mod (w n : Nat) : ofNumber w (n % 2 ^ w) = ofNumber w n := by
  refine List.map_congr_left fun i hi => ?_
  have hlt := List.mem_range.1 hi
  rw [Nat.testBit_mod_two_pow, decide_eq_true (by omega), Bool.true_and]

/-- What stands before the last `w` digits, and these. -/
theorem ofNumber_shiftLeft_or {v w n m : Nat} (h : m < 2 ^ w) :
    ofNumber (v + w) (n <<< w ||| m) = ofNumber v n ++ ofNumber w m := by
  have hhigh : (n <<< w ||| m) >>> w = n := by
    rw [Nat.shiftRight_or_distrib, Nat.shiftLeft_shiftRight, Nat.shiftRight_eq_zero m w h,
      Nat.or_zero]
  have hlow : (n <<< w ||| m) % 2 ^ w = m := by
    rw [Nat.or_mod_two_pow, Nat.shiftLeft_eq, Nat.mul_mod_left, Nat.zero_or, Nat.mod_eq_of_lt h]
  rw [ofNumber_add, hhigh, ← ofNumber_mod w (n <<< w ||| m), hlow]

/-- The digits of a number write it. -/
theorem toNumber_ofNumber (w n : Nat) : toNumber (ofNumber w n) = n % 2 ^ w := by
  induction w generalizing n with
  | zero => rw [Nat.pow_zero, Nat.mod_one]; rfl
  | succ w ih =>
    have hlast : ofNumber 1 n = [n.testBit 0] := rfl
    have hbit : (n.testBit 0).toNat = n % 2 := by
      rw [Nat.testBit_zero]
      rcases Nat.mod_two_eq_zero_or_one n with h | h <;> simp [h]
    rw [ofNumber_add, hlast, toNumber, List.foldl_append, List.foldl_cons, List.foldl_nil,
      ← toNumber, ih, hbit, Nat.shiftRight_one, Nat.pow_succ', Nat.mod_mul]
    omega

/-! ### Bytes -/

/-- The bits of a byte come before those of the bytes behind it. -/
theorem ofBytes_cons (b : UInt8) (bytes : Bytes) :
    ofBytes (b :: bytes) = ofNumber 8 b.toNat ++ ofBytes bytes :=
  List.flatMap_cons

/-- Bits of joined bytes are joined. -/
theorem ofBytes_append (x y : Bytes) : ofBytes (x ++ y) = ofBytes x ++ ofBytes y :=
  List.flatMap_append

/-- A byte has eight bits. -/
@[simp] theorem length_ofBytes (bytes : Bytes) : (ofBytes bytes).length = 8 * bytes.length := by
  simp [ofBytes, List.length_flatMap, List.map_const', Nat.mul_comm]

/-- Zero bytes are zero bits. -/
theorem ofBytes_replicate_zero (n : Nat) :
    ofBytes (List.replicate n 0) = List.replicate (8 * n) false := by
  induction n with
  | zero => rfl
  | succ n ih =>
    rw [List.replicate_succ, ofBytes_cons, ih, Nat.mul_succ, Nat.add_comm,
      ← List.replicate_append_replicate]
    rfl

/-! ### The lowest first -/

/-- A number has the bits it is given room for, lowest first too. -/
@[simp] theorem length_ofNumberLow (w n : Nat) : (ofNumberLow w n).length = w := by
  simp [ofNumberLow]

/-- A byte has eight bits, lowest first too. -/
@[simp] theorem length_ofBytesLow (bytes : Bytes) :
    (ofBytesLow bytes).length = 8 * bytes.length := by
  simp [ofBytesLow, List.length_flatMap, List.map_const', Nat.mul_comm]

/-- The lowest bit comes first, and the others are those of the half. -/
theorem ofNumberLow_succ (w n : Nat) :
    ofNumberLow (w + 1) n = n.testBit 0 :: ofNumberLow w (n >>> 1) := by
  rw [ofNumberLow, List.range_succ_eq_map, List.map_cons, List.map_map]
  refine congrArg _ (List.map_congr_left fun i _ => ?_)
  rw [Nat.testBit_shiftRight, Nat.add_comm]
  rfl

/-- The highest bit comes last. -/
theorem ofNumberLow_concat (w n : Nat) :
    ofNumberLow (w + 1) n = ofNumberLow w n ++ [n.testBit w] := by
  rw [ofNumberLow, List.range_succ, List.map_append]
  rfl

/-- Room that a number does not need is filled with zeros. -/
theorem ofNumberLow_add_of_lt {w n : Nat} (h : n < 2 ^ w) (k : Nat) :
    ofNumberLow (w + k) n = ofNumberLow w n ++ List.replicate k false := by
  induction k with
  | zero => rw [List.replicate_zero, List.append_nil, Nat.add_zero]
  | succ k ih =>
    have hless : n < 2 ^ (w + k) :=
      Nat.lt_of_lt_of_le h (Nat.pow_le_pow_right (by decide) (Nat.le_add_right w k))
    have hbit : n.testBit (w + k) = false := Nat.testBit_lt_two_pow hless
    rw [← Nat.add_assoc, ofNumberLow_concat, ih, hbit, List.append_assoc, List.replicate_succ']

/-- Lowest first is highest first reversed. -/
theorem reverse_ofNumberLow (w n : Nat) : (ofNumberLow w n).reverse = ofNumber w n := by
  refine List.ext_getElem (by simp) fun i hi _ => ?_
  simp [ofNumberLow, ofNumber]

/-! ### Groups -/

variable {w : Nat}

/-- The first group is the word that stands first. -/
theorem group_ofNumber (n : Nat) (rest : List Bool) :
    group w (ofNumber w n ++ rest) 0 = BitVec.ofNat w n := by
  have hfirst : ((ofNumber w n ++ rest).drop (w * 0)).take w = ofNumber w n :=
    List.take_left' (length_ofNumber w n)
  rw [group, hfirst, toNumber_ofNumber]
  exact BitVec.eq_of_toNat_eq (by simp)

/-- The groups behind some others. -/
theorem group_append_right {before : List Bool} {m : Nat} (h : before.length = w * m)
    (rest : List Bool) (i : Nat) : group w (before ++ rest) (m + i) = group w rest i := by
  rw [group, group, Nat.mul_add, ← h, List.drop_length_add_append]

/-- The groups of eight bits are the bytes. -/
theorem group_ofBytes (bytes : Bytes) (i : Nat) :
    group 8 (ofBytes bytes) i = (bytes[i]?.getD 0).toBitVec := by
  induction bytes generalizing i with
  | nil => simp [group, ofBytes, toNumber]
  | cons b bytes ih =>
    rw [ofBytes_cons]
    cases i with
    | zero =>
      rw [group_ofNumber]
      exact BitVec.ofNat_toNat 8 b.toBitVec
    | succ i =>
      rw [Nat.add_comm, group_append_right (length_ofNumber 8 _), ih, Nat.add_comm]
      rfl

end Bits
end FlashVolume

import FlashVolume.Proofs.Digest.Bits
import FlashVolume.Proofs.Digest.Constants
/-!
# SHA-256 as a function of bits

The standard describes the hash of a message of bits. The message is followed by a one, by zeros and
by its length, and is then parsed: into blocks of 512 bits, and a block into sixteen words. A
schedule makes 64 words of these, and each of 64 rounds takes one word of it.

Here the hash is written down as it is described there, with bits, indexed words and recurrences:
nothing is said of bytes, of the order in which a word is put together or of blocks that are not
full yet. The round constants are the roots themselves, and not a table.
-/

namespace FlashVolume
namespace Sha256
namespace Standard

/-- Each bit of `x` chooses between those of `y` and `z`. -/
def choose (x y z : BitVec 32) : BitVec 32 :=
  (x &&& y) ^^^ (~~~x &&& z)

/-- Each bit is that of at least two words. -/
def majority (x y z : BitVec 32) : BitVec 32 :=
  (x &&& y) ^^^ (x &&& z) ^^^ (y &&& z)

/-- Three rotations, added bit by bit. -/
def rotations (i j k : Nat) (x : BitVec 32) : BitVec 32 :=
  x.rotateRight i ^^^ x.rotateRight j ^^^ x.rotateRight k

/-- Two rotations and a shift, added bit by bit. -/
def rotationsShift (i j k : Nat) (x : BitVec 32) : BitVec 32 :=
  x.rotateRight i ^^^ x.rotateRight j ^^^ (x >>> k)

/-- The working variables. -/
structure Variables where
  a : BitVec 32
  b : BitVec 32
  c : BitVec 32
  d : BitVec 32
  e : BitVec 32
  f : BitVec 32
  g : BitVec 32
  h : BitVec 32

/-- The schedule of a block of sixteen words. -/
def schedule (block : Nat → BitVec 32) (t : Nat) : BitVec 32 :=
  if t < 16 then block t
  else rotationsShift 17 19 10 (schedule block (t - 2)) + schedule block (t - 7) +
    rotationsShift 7 18 3 (schedule block (t - 15)) + schedule block (t - 16)

/-- One round, with its constant and its word of the schedule. -/
def round (k w : BitVec 32) (v : Variables) : Variables :=
  let t₁ := v.h + rotations 6 11 25 v.e + choose v.e v.f v.g + k + w
  let t₂ := rotations 2 13 22 v.a + majority v.a v.b v.c
  ⟨t₁ + t₂, v.a, v.b, v.c, v.d + t₁, v.e, v.f, v.g⟩

/-- The variables after the first rounds. -/
noncomputable def rounds (block : Nat → BitVec 32) (v : Variables) : Nat → Variables
  | 0 => v
  | t + 1 => round (rootBits 3 t) (schedule block t) (rounds block v t)

/-- The rounds, one after the other. -/
theorem rounds_eq_foldl (block : Nat → BitVec 32) (v : Variables) (n : Nat) :
    rounds block v n =
      ((List.range n).map fun t => (rootBits 3 t, schedule block t)).foldl
        (fun v kw => round kw.1 kw.2 v) v := by
  induction n with
  | zero => rfl
  | succ n ih =>
    rw [List.range_succ, List.map_append, List.foldl_append, ← ih]
    rfl

/-- The hash value before the first block. -/
noncomputable def initial : Variables :=
  ⟨rootBits 2 0, rootBits 2 1, rootBits 2 2, rootBits 2 3, rootBits 2 4, rootBits 2 5, rootBits 2 6,
    rootBits 2 7⟩

/-- The hash value after one more block. -/
noncomputable def next (block : Nat → BitVec 32) (v : Variables) : Variables :=
  let r := rounds block v 64
  ⟨r.a + v.a, r.b + v.b, r.c + v.c, r.d + v.d, r.e + v.e, r.f + v.f, r.g + v.g, r.h + v.h⟩

/-- The hash value after the first blocks of 512 bits. -/
noncomputable def hashValue (padded : List Bool) : Nat → Variables
  | 0 => initial
  | i + 1 => next (Bits.group 32 ((padded.drop (512 * i)).take 512)) (hashValue padded i)

/-- The first hash values depend on the first blocks only. -/
theorem hashValue_append {before : List Bool} {n : Nat} (h : 512 * n ≤ before.length)
    (rest : List Bool) : hashValue (before ++ rest) n = hashValue before n := by
  induction n with
  | zero => rfl
  | succ n ih =>
    have hblock : 512 * n + 512 ≤ before.length := h
    rw [hashValue, hashValue, ih (by omega), List.drop_append_of_le_length (by omega),
      List.take_append_of_le_length (by rw [List.length_drop]; omega)]

/-- There are zeros enough to fill a block up to its last 64 bits. -/
theorem exists_zeros (length : Nat) : ∃ k, (length + 1 + k) % 512 = 448 :=
  ⟨(959 - length % 512) % 512, by omega⟩

/-- A one, as few zeros as leave 64 bits of a block, and the length. The standard has no digest of
2 ^ 64 bits or more; of the length of such a message, the last 64 bits are taken. -/
def pad (message : List Bool) : List Bool :=
  message ++ true :: List.replicate (Nat.find (exists_zeros message.length)) false ++
    Bits.ofNumber 64 message.length

/-- The digest of a message. -/
noncomputable def digest (message : List Bool) : List Bool :=
  let padded := pad message
  let v := hashValue padded (padded.length / 512)
  [v.a, v.b, v.c, v.d, v.e, v.f, v.g, v.h].flatMap fun word => Bits.ofNumber 32 word.toNat

end Standard
end Sha256
end FlashVolume

import FlashVolume.Text.Utf8
/-!
# SHA-256

The SHA-256 of section 10.6 of the specification, which `update` feeds and `finalize` ends.

The message is followed by the byte `80`, by zeros up to 56 modulo 64 bytes, and by its length in
bits as a 64-bit big-endian number. Each block of 64 bytes is compressed into eight 32-bit words.

A hash that is being computed keeps the words, the bytes of the block that is not full yet, and
the length so far. `absorb` takes a chunk of any length: it compresses every block that becomes
full and keeps the rest.
-/

namespace FlashVolume
namespace Sha256

/-- The round constants: the first 32 bits of the fractional parts of the cube roots of the first
64 primes. -/
def roundConstants : List UInt32 :=
  [0x428a2f98, 0x71374491, 0xb5c0fbcf, 0xe9b5dba5, 0x3956c25b, 0x59f111f1, 0x923f82a4, 0xab1c5ed5,
   0xd807aa98, 0x12835b01, 0x243185be, 0x550c7dc3, 0x72be5d74, 0x80deb1fe, 0x9bdc06a7, 0xc19bf174,
   0xe49b69c1, 0xefbe4786, 0x0fc19dc6, 0x240ca1cc, 0x2de92c6f, 0x4a7484aa, 0x5cb0a9dc, 0x76f988da,
   0x983e5152, 0xa831c66d, 0xb00327c8, 0xbf597fc7, 0xc6e00bf3, 0xd5a79147, 0x06ca6351, 0x14292967,
   0x27b70a85, 0x2e1b2138, 0x4d2c6dfc, 0x53380d13, 0x650a7354, 0x766a0abb, 0x81c2c92e, 0x92722c85,
   0xa2bfe8a1, 0xa81a664b, 0xc24b8b70, 0xc76c51a3, 0xd192e819, 0xd6990624, 0xf40e3585, 0x106aa070,
   0x19a4c116, 0x1e376c08, 0x2748774c, 0x34b0bcb5, 0x391c0cb3, 0x4ed8aa4a, 0x5b9cca4f, 0x682e6ff3,
   0x748f82ee, 0x78a5636f, 0x84c87814, 0x8cc70208, 0x90befffa, 0xa4506ceb, 0xbef9a3f7, 0xc67178f2]

/-- The eight words that the blocks are compressed into. -/
structure Words where
  a : UInt32
  b : UInt32
  c : UInt32
  d : UInt32
  e : UInt32
  f : UInt32
  g : UInt32
  h : UInt32
deriving DecidableEq, Repr

/-- The words before the first block: the first 32 bits of the fractional parts of the square
roots of the first eight primes. -/
def initialWords : Words :=
  ⟨0x6a09e667, 0xbb67ae85, 0x3c6ef372, 0xa54ff53a, 0x510e527f, 0x9b05688c, 0x1f83d9ab, 0x5be0cd19⟩

/-- The sum, word by word. -/
def Words.add (x y : Words) : Words :=
  ⟨x.a + y.a, x.b + y.b, x.c + y.c, x.d + y.d, x.e + y.e, x.f + y.f, x.g + y.g, x.h + y.h⟩

/-- A word rotated to the right by `0 < n < 32`. -/
def rotate (x : UInt32) (n : UInt32) : UInt32 :=
  (x >>> n) ||| (x <<< (32 - n))

/-- The next word of the schedule, from the sixteen before it, newest first. -/
def nextWord (recent : List UInt32) : UInt32 :=
  match recent with
  | [_, w2, _, _, _, _, w7, _, _, _, _, _, _, _, w15, w16] =>
    let s0 := rotate w15 7 ^^^ rotate w15 18 ^^^ (w15 >>> 3)
    let s1 := rotate w2 17 ^^^ rotate w2 19 ^^^ (w2 >>> 10)
    w16 + s0 + w7 + s1
  | _ => 0

/-- Extends a schedule, newest word first, by `n` words. -/
def extend : Nat → List UInt32 → List UInt32
  | 0, ws => ws
  | n + 1, ws => extend n (nextWord (ws.take 16) :: ws)

/-- The big-endian words of a byte sequence. -/
def bigEndianWords : Bytes → List UInt32
  | a :: b :: c :: d :: rest =>
    ((a.toUInt32 <<< 24) ||| (b.toUInt32 <<< 16) ||| (c.toUInt32 <<< 8) ||| d.toUInt32)
      :: bigEndianWords rest
  | _ => []

/-- The 64 words of the schedule of a block. -/
def schedule (block : Bytes) : List UInt32 :=
  (extend 48 (bigEndianWords block).reverse).reverse

/-- One round, with its constant and its word of the schedule. -/
def round (s : Words) (kw : UInt32 × UInt32) : Words :=
  let s1 := rotate s.e 6 ^^^ rotate s.e 11 ^^^ rotate s.e 25
  let choice := (s.e &&& s.f) ^^^ ((~~~ s.e) &&& s.g)
  let t1 := s.h + s1 + choice + kw.1 + kw.2
  let s0 := rotate s.a 2 ^^^ rotate s.a 13 ^^^ rotate s.a 22
  let majority := (s.a &&& s.b) ^^^ (s.a &&& s.c) ^^^ (s.b &&& s.c)
  ⟨t1 + (s0 + majority), s.a, s.b, s.c, s.d + t1, s.e, s.f, s.g⟩

/-- Compresses a block into the words. -/
def compress (s : Words) (block : Bytes) : Words :=
  s.add ((roundConstants.zip (schedule block)).foldl round s)

/-- A hash that is being computed. -/
structure State where
  /-- The words after the full blocks. -/
  words : Words := initialWords
  /-- The bytes of the block that is not full yet. -/
  pending : Bytes := []
  /-- The number of bytes so far. -/
  length : Nat := 0
deriving DecidableEq, Repr

/-- Compresses the leading full blocks, and answers the words and the bytes that are left. -/
def absorbBlocks (s : Words) (bytes : Bytes) : Words × Bytes :=
  if (bytes.drop 63).isEmpty then (s, bytes)
  else absorbBlocks (compress s (bytes.take 64)) (bytes.drop 64)
termination_by bytes.length
decreasing_by
  rename_i h
  have : bytes.drop 63 ≠ [] := fun h' => h (by simp [h'])
  have : 63 < bytes.length := by
    rw [Ne, List.drop_eq_nil_iff] at this
    omega
  simp only [List.length_drop]
  omega

/-- Takes a chunk of the message. -/
def State.absorb (s : State) (chunk : Bytes) : State :=
  let (words, pending) := absorbBlocks s.words (s.pending ++ chunk)
  ⟨words, pending, s.length + chunk.length⟩

/-- The last `width` big-endian bytes of a number. -/
def bigEndianBytes (width n : Nat) : Bytes :=
  (List.range width).map fun i => UInt8.ofNat (n >>> (8 * (width - 1 - i)))

/-- What follows a message of `length` bytes: the byte `80`, the zeros, and the length in bits,
modulo 64 bits. -/
def padding (length : Nat) : Bytes :=
  0x80 :: List.replicate ((119 - length % 64) % 64) 0 ++ bigEndianBytes 8 (8 * length)

/-- The bytes of the words. -/
def Words.toBytes (s : Words) : Bytes :=
  [s.a, s.b, s.c, s.d, s.e, s.f, s.g, s.h].flatMap fun w => bigEndianBytes 4 w.toNat

/-- The hash of the message so far. -/
def State.finish (s : State) : Bytes :=
  (absorbBlocks s.words (s.pending ++ padding s.length)).1.toBytes

/-- The hash of a message. -/
def hash (message : Bytes) : Bytes :=
  (absorbBlocks initialWords (message ++ padding message.length)).1.toBytes

end Sha256
end FlashVolume

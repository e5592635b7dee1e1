import FlashVolume.Digest.Algorithm
/-!
# Digests in chunks

Section 4.5 of the specification: the loop that feeds an accumulator is the same for both
algorithms.

An accumulator depends on the message so far only, and not on the chunks that it came in.
`Accumulator.after` is the accumulator that a message leads to: absorbing a chunk appends it to the
message, and finishing gives the digest of the message.

For SHA-256 this rests on `absorbBlocks_append`. The bytes of a block that is not full yet are kept
and stand before the next chunk, so that the blocks are those of the whole message.
-/

namespace FlashVolume

namespace Sha256

/-- Less than a block is kept for later. -/
theorem absorbBlocks_of_lt {bytes : Bytes} (h : bytes.length < 64) (s : Words) :
    absorbBlocks s bytes = (s, bytes) := by
  have hrest : bytes.drop 63 = [] := List.drop_eq_nil_of_le (by omega)
  rw [absorbBlocks, hrest]
  rfl

/-- A whole block is compressed, and the bytes behind it come next. -/
theorem absorbBlocks_of_le {bytes : Bytes} (h : 64 ≤ bytes.length) (s : Words) :
    absorbBlocks s bytes = absorbBlocks (compress s (bytes.take 64)) (bytes.drop 64) := by
  have hrest : ¬(bytes.drop 63).isEmpty = true := by
    rw [List.isEmpty_iff, List.drop_eq_nil_iff]
    omega
  rw [absorbBlocks, if_neg hrest]

/-- **Blocks are cut from the whole message.**  What is left of `x` after its full blocks stands
before `y`. -/
theorem absorbBlocks_append (s : Words) (x y : Bytes) :
    absorbBlocks s (x ++ y) =
      absorbBlocks (absorbBlocks s x).1 ((absorbBlocks s x).2 ++ y) := by
  -- By induction on the length of `x`, a block at a time.
  induction hlength : x.length using Nat.strongRecOn generalizing s x with
  | ind length ih =>
    by_cases hblock : x.length < 64
    · rw [absorbBlocks_of_lt hblock]
    · have hle : 64 ≤ x.length := by omega
      have hrest : (x.drop 64).length < length := by
        rw [List.length_drop]
        omega
      have hboth : 64 ≤ (x ++ y).length := by
        rw [List.length_append]
        omega
      rw [absorbBlocks_of_le hle, absorbBlocks_of_le hboth, List.take_append_of_le_length hle,
        List.drop_append_of_le_length hle]
      exact ih _ hrest _ _ rfl

namespace State

/-- The state that a message leads to. -/
def after (message : Bytes) : State where
  words := (absorbBlocks initialWords message).1
  pending := (absorbBlocks initialWords message).2
  length := message.length

/-- The state after no bytes is the one an engine starts with. -/
theorem after_nil : after [] = {} := by
  rw [after, absorbBlocks_of_lt (by decide)]
  rfl

/-- A chunk extends what the state has seen. -/
theorem absorb_after (message chunk : Bytes) :
    (after message).absorb chunk = after (message ++ chunk) := by
  rw [after, after, absorb, absorbBlocks_append initialWords message chunk, List.length_append]

/-- Finishing the state after a message gives the hash of the message. -/
theorem finish_after (message : Bytes) : (after message).finish = hash message := by
  rw [after, finish, hash, absorbBlocks_append initialWords message]

end State
end Sha256

namespace Accumulator

/-- The accumulator that a message leads to. -/
def after (algorithm : Algorithm) (message : Bytes) : Accumulator :=
  match algorithm with
  | .sha256 => sha256 (.after message)
  | .crc32 => crc32 (Crc32.absorb Crc32.start message)

/-- An engine starts in the state after no bytes. -/
theorem start_eq_after (algorithm : Algorithm) : start algorithm = after algorithm [] := by
  cases algorithm with
  | sha256 => rw [after, Sha256.State.after_nil, start]
  | crc32 => rfl

/-- **Absorbing a chunk appends it to the message.** -/
theorem absorb_after (algorithm : Algorithm) (message chunk : Bytes) :
    (after algorithm message).absorb chunk = after algorithm (message ++ chunk) := by
  cases algorithm with
  | sha256 => rw [after, after, absorb, Sha256.State.absorb_after]
  | crc32 => rw [after, after, absorb, Crc32.absorb_append]

/-- **Chunk after chunk**: an engine that is fed chunks is in the state after their concatenation.
-/
theorem foldl_absorb_after (algorithm : Algorithm) (message : Bytes) (chunks : List Bytes) :
    chunks.foldl (fun acc chunk => acc.absorb chunk) (after algorithm message) =
      after algorithm (message ++ chunks.flatten) := by
  induction chunks generalizing message with
  | nil => rw [List.foldl_nil, List.flatten_nil, List.append_nil]
  | cons chunk chunks ih =>
    rw [List.foldl_cons, absorb_after, ih, List.flatten_cons, List.append_assoc]

/-- **Finishing gives the digest of the message.** -/
theorem finish_after (algorithm : Algorithm) (message : Bytes) :
    (after algorithm message).finish = algorithm.digest message := by
  cases algorithm with
  | sha256 => rw [after, finish, Algorithm.digest, Sha256.State.finish_after]
  | crc32 => rfl

/-- Chunks lead to the digest of all of them in a row. -/
theorem finish_foldl_absorb (algorithm : Algorithm) (chunks : List Bytes) :
    (chunks.foldl (fun acc chunk => acc.absorb chunk) (start algorithm)).finish =
      algorithm.digest chunks.flatten := by
  rw [start_eq_after, foldl_absorb_after, List.nil_append, finish_after]

end Accumulator

namespace Algorithm

/-- The hash of the empty message is not the value that stands for no digest. -/
theorem digest_nil_ne_zeroed : sha256.digest [] ≠ sha256.zeroed := by
  have hwords : (Sha256.absorbBlocks Sha256.initialWords (Sha256.padding 0)).1 =
      Sha256.compress Sha256.initialWords (Sha256.padding 0) := by
    rw [Sha256.absorbBlocks_of_le (by decide), Sha256.absorbBlocks_of_lt (by decide),
      List.take_of_length_le (by decide)]
  rw [digest, Sha256.hash, List.nil_append, List.length_nil, hwords]
  decide +kernel

end Algorithm
end FlashVolume

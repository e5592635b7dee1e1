import FlashVolume.Proofs.Digest.Checksum
import FlashVolume.Proofs.Digest.Hash
/-!
# Digests are those of the standards

The algorithms of section 10.6 of the specification.

An accumulator is fed bytes, in chunks; a standard describes the digest of a message of bits. What
joins them is the order in which the bits of a byte are taken: the highest first for SHA-256, the
lowest first for CRC-32.

| algorithm | bits of a byte | digest |
| --- | --- | --- |
| SHA-256 | highest first | 32 bytes, the highest bit of each first |
| CRC-32 | lowest first | 32 bits, the lowest first |
-/

namespace FlashVolume

namespace Algorithm

/-- The digest that the standard of an algorithm describes. -/
noncomputable def standard (message : Bytes) : Algorithm → Digest
  | sha256 =>
    let bits := Sha256.Standard.digest (Bits.ofBytes message)
    .sha256 (Vector.ofFn fun i : Fin 32 => .ofBitVec (Bits.group 8 bits i))
  | crc32 =>
    let bits := Crc32.Standard.checksum (Bits.ofBytesLow message)
    .crc32 (.ofNat (Bits.toNumber bits.reverse))

/-- **The digest of a message is that of the standard.** -/
theorem digest_eq_standard (algorithm : Algorithm) (message : Bytes) :
    algorithm.digest message = algorithm.standard message := by
  cases algorithm with
  | sha256 =>
    simp only [digest, standard, Digest.ofSha256Bytes, ← Sha256.ofBytes_hash, Bits.group_ofBytes]
  | crc32 =>
    rw [digest, standard, ← Crc32.ofNumberLow_checksum, Bits.reverse_ofNumberLow,
      Bits.toNumber_ofNumber, Nat.mod_eq_of_lt (UInt32.toNat_lt _), UInt32.ofNat_toNat]

end Algorithm

namespace Accumulator

/-- **How a message is cut into chunks does not matter.**  Fed the chunks in order, empty ones
among them, an accumulator finishes with the value that it has when it is fed all of them at once,
and this is the digest of the standard. -/
theorem finish_chunks (algorithm : Algorithm) (chunks : List Bytes) :
    let fed := chunks.foldl (fun acc chunk => acc.absorb chunk) (start algorithm)
    let whole := (start algorithm).absorb chunks.flatten
    fed.finish = whole.finish ∧ whole.finish = algorithm.standard chunks.flatten := by
  have hwhole : ((start algorithm).absorb chunks.flatten).finish =
      algorithm.digest chunks.flatten := by
    rw [start_eq_after, absorb_after, List.nil_append, finish_after]
  exact ⟨(finish_foldl_absorb algorithm chunks).trans hwhole.symm,
    hwhole.trans (algorithm.digest_eq_standard _)⟩

end Accumulator
end FlashVolume

import FlashVolume.Config.Basic
import FlashVolume.Digest.Crc32
import FlashVolume.Digest.Sha256
import FlashVolume.Error.Operation
/-!
# Digests

Sections 3 and 10.6 of the specification: the accumulator, its two algorithms, and the values that
`finalize` gives.

Two algorithms: SHA-256, a hash of 32 bytes, and CRC-32, a checksum of 32 bits. A message is fed
to an `Accumulator` in chunks, and `finish` gives its `Digest`.
-/

namespace FlashVolume

/-- How a digest is computed. -/
inductive Algorithm where
  | sha256
  | crc32
deriving DecidableEq, Repr

/-- The value of a digest. -/
inductive Digest where
  | sha256 (bytes : Vector UInt8 32)
  | crc32 (value : UInt32)
deriving DecidableEq, Repr

namespace Algorithm

/-- The name of an algorithm. -/
def name : Algorithm → String
  | sha256 => "sha256"
  | crc32 => "crc32"

/-- The algorithm of a name, read without regard to the case of ASCII letters. -/
def ofName (name : String) : Except Error Algorithm :=
  match name.toLower with
  | "sha256" => .ok sha256
  | "crc32" => .ok crc32
  | other => .error (.invalidInput ("unknown algorithm " ++ other))

/-- How many bytes are fed to the algorithm at a time. -/
def chunkSize (config : Config) : Algorithm → Nat
  | sha256 => config.hashChunkSize.toNat
  | crc32 => config.checksumChunkSize.toNat

/-- The value that stands for no digest. -/
def zeroed : Algorithm → Digest
  | sha256 => .sha256 (Vector.replicate 32 0)
  | crc32 => .crc32 0

end Algorithm

/-- A digest that is being computed. -/
inductive Accumulator where
  | sha256 (state : Sha256.State)
  | crc32 (register : UInt32)
deriving DecidableEq, Repr

namespace Accumulator

/-- Before the first chunk. -/
def start : Algorithm → Accumulator
  | .sha256 => sha256 {}
  | .crc32 => crc32 Crc32.start

/-- Takes a chunk of the message. -/
def absorb (chunk : Bytes) : Accumulator → Accumulator
  | sha256 state => sha256 (state.absorb chunk)
  | crc32 register => crc32 (Crc32.absorb register chunk)

end Accumulator

namespace Digest

/-- The SHA-256 value of the given bytes, which are cut or filled with zeros to 32. -/
def ofSha256Bytes (bytes : Bytes) : Digest :=
  sha256 (Vector.ofFn fun i : Fin 32 => bytes[i.val]?.getD 0)

/-- The bytes of a digest, in the order in which they are shown. -/
def toBytes : Digest → Bytes
  | sha256 bytes => bytes.toList
  | crc32 value => Sha256.bigEndianBytes 4 value.toNat

/-- A byte as two lowercase hexadecimal digits. -/
def hexByte (b : UInt8) : List Char :=
  [Nat.digitChar (b.toNat / 16), Nat.digitChar (b.toNat % 16)]

/-- The lowercase hexadecimal digits of a digest. -/
def toHex (digest : Digest) : String :=
  String.ofList (digest.toBytes.flatMap hexByte)

/-- The algorithm that a digest is a value of. -/
def algorithm : Digest → Algorithm
  | sha256 _ => .sha256
  | crc32 _ => .crc32

/-- Whether the digest is the value that stands for no digest. -/
def isZero (digest : Digest) : Bool :=
  digest = digest.algorithm.zeroed

end Digest

/-- The digest of the chunks so far. -/
def Accumulator.finish : Accumulator → Digest
  | sha256 state => .ofSha256Bytes state.finish
  | crc32 register => .crc32 (Crc32.finish register)

/-- The digest of a message. -/
def Algorithm.digest (message : Bytes) : Algorithm → Digest
  | sha256 => .ofSha256Bytes (Sha256.hash message)
  | crc32 => .crc32 (Crc32.checksum message)

end FlashVolume

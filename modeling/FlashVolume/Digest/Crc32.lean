import FlashVolume.Text.Utf8
/-!
# CRC-32

The CRC-32 of section 10.6 of the specification, which `update` feeds and `finalize` ends.

The IEEE 802.3 checksum: reflected polynomial `EDB88320`, register initially all ones, result
complemented. The register after a message is a left fold over its bytes, so a checksum that is
computed in chunks is the checksum of the whole.
-/

namespace FlashVolume
namespace Crc32

/-- The register before the first byte. -/
def start : UInt32 := 0xFFFFFFFF

/-- Shifts the register by one bit. -/
def shift (r : UInt32) : UInt32 :=
  if r &&& 1 = 1 then (r >>> 1) ^^^ 0xEDB88320 else r >>> 1

/-- Takes one byte. -/
def push (r : UInt32) (b : UInt8) : UInt32 :=
  shift (shift (shift (shift (shift (shift (shift (shift (r ^^^ b.toUInt32))))))))

/-- Takes a chunk of the message. -/
def absorb (r : UInt32) (chunk : Bytes) : UInt32 :=
  chunk.foldl push r

/-- **Chunks add up.** -/
theorem absorb_append (r : UInt32) (x y : Bytes) :
    absorb r (x ++ y) = absorb (absorb r x) y :=
  List.foldl_append

/-- The checksum that the register stands for. -/
def finish (r : UInt32) : UInt32 := ~~~ r

/-- The checksum of a message. -/
def checksum (message : Bytes) : UInt32 :=
  finish (absorb start message)

end Crc32
end FlashVolume

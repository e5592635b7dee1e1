/-!
# Bounds of words

The largest numbers that fit into words of 32, 64 and 128 bits.

| word | largest number |
| --- | ---: |
| 32 bits, unsigned | 4294967295 |
| 64 bits, unsigned | 18446744073709551615 |
| 64 bits, signed | 9223372036854775807 |
| 128 bits, unsigned | 340282366920938463463374607431768211455 |
| 128 bits, signed | 170141183460469231731687303715884105727 |
-/

namespace FlashVolume
namespace Word

/-- The largest unsigned number of 32 bits. -/
def maxUnsigned32 : Nat := 0xFFFFFFFF

/-- The largest unsigned number of 64 bits. -/
def maxUnsigned64 : Nat := 0xFFFFFFFFFFFFFFFF

/-- The largest signed number of 64 bits. The least is its negative, less one. -/
def maxSigned64 : Nat := 0x7FFFFFFFFFFFFFFF

/-- The largest unsigned number of 128 bits. -/
def maxUnsigned128 : Nat := 0xFFFFFFFFFFFFFFFFFFFFFFFFFFFFFFFF

/-- The largest signed number of 128 bits. The least is its negative, less one. -/
def maxSigned128 : Nat := 0x7FFFFFFFFFFFFFFFFFFFFFFFFFFFFFFF

end Word
end FlashVolume

import FlashVolume.Bytes
/-!
# UTF-8

Texts as bytes. `encode` writes a text, `byteLength` counts its bytes, and `takeBytes` cuts it
to a number of bytes without splitting a character.

Bytes are read one at a time. The first byte of a character says how many continuation bytes are
owed and which values the next one may have:

| first byte | owed | next byte |
| --- | ---: | --- |
| `00` … `7F` | 0 | |
| `C2` … `DF` | 1 | `80` … `BF` |
| `E0` | 2 | `A0` … `BF` |
| `E1` … `EC`, `EE`, `EF` | 2 | `80` … `BF` |
| `ED` | 2 | `80` … `9F` |
| `F0` | 3 | `90` … `BF` |
| `F1` … `F3` | 3 | `80` … `BF` |
| `F4` | 3 | `80` … `8F` |

A byte that cannot continue the open character ends it: the bytes of that character so far are
one ill-formed run, and the byte is read again as a first byte. `decode?` refuses a text with an
ill-formed run, `decodeLossy` writes `U+FFFD` for each.
-/

namespace FlashVolume

namespace Text

/-- The UTF-8 bytes of a text. -/
def encode (s : String) : Bytes :=
  s.toList.flatMap String.utf8EncodeChar

/-- The number of UTF-8 bytes of a text. -/
def byteLength (s : String) : Nat :=
  s.utf8ByteSize

/-- The longest run of leading characters that takes at most `n` bytes. -/
def takeBytesChars : Nat → List Char → List Char
  | _, [] => []
  | n, c :: cs => if c.utf8Size ≤ n then c :: takeBytesChars (n - c.utf8Size) cs else []

/-- The longest beginning of a text that takes at most `n` bytes. -/
def takeBytes (n : Nat) (s : String) : String :=
  String.ofList (takeBytesChars n s.toList)

/-- A character whose first bytes have been read: the bits so far, the number of bytes still
owed, and the bounds of the next one. -/
structure OpenChar where
  bits : Nat
  owed : Nat
  low : Nat
  high : Nat
deriving DecidableEq, Repr

/-- What one byte does. -/
inductive ByteStep where
  /-- It completes a character. -/
  | char (c : Char)
  /-- It leaves a character open. -/
  | more (p : OpenChar)
  /-- It is not allowed here. -/
  | refuse
deriving DecidableEq, Repr

/-- A byte between characters. -/
def firstByte (b : UInt8) : ByteStep :=
  let n := b.toNat
  if n ≤ 0x7F then .char (Char.ofNat n)
  else if n < 0xC2 then .refuse
  else if n ≤ 0xDF then .more ⟨n - 0xC0, 1, 0x80, 0xBF⟩
  else if n = 0xE0 then .more ⟨0, 2, 0xA0, 0xBF⟩
  else if n = 0xED then .more ⟨0xD, 2, 0x80, 0x9F⟩
  else if n ≤ 0xEF then .more ⟨n - 0xE0, 2, 0x80, 0xBF⟩
  else if n = 0xF0 then .more ⟨0, 3, 0x90, 0xBF⟩
  else if n ≤ 0xF3 then .more ⟨n - 0xF0, 3, 0x80, 0xBF⟩
  else if n = 0xF4 then .more ⟨4, 3, 0x80, 0x8F⟩
  else .refuse

/-- A byte inside a character. -/
def nextByte (p : OpenChar) (b : UInt8) : ByteStep :=
  let n := b.toNat
  if p.low ≤ n ∧ n ≤ p.high then
    let bits := p.bits * 64 + (n - 0x80)
    if p.owed ≤ 1 then .char (Char.ofNat bits) else .more ⟨bits, p.owed - 1, 0x80, 0xBF⟩
  else .refuse

/-- A decoder between two bytes: the character that is open, and what has been read, newest
first, with `none` for an ill-formed run. -/
structure Decoder where
  pending : Option OpenChar := none
  done : List (Option Char) := []
deriving DecidableEq, Repr

/-- Takes a byte between characters. -/
def Decoder.start (d : Decoder) (b : UInt8) : Decoder :=
  match firstByte b with
  | .char c => ⟨none, some c :: d.done⟩
  | .more p => ⟨some p, d.done⟩
  | .refuse => ⟨none, none :: d.done⟩

/-- Takes one byte. -/
def Decoder.push (d : Decoder) (b : UInt8) : Decoder :=
  match d.pending with
  | none => d.start b
  | some p =>
    match nextByte p b with
    | .char c => ⟨none, some c :: d.done⟩
    | .more q => ⟨some q, d.done⟩
    | .refuse => Decoder.start ⟨none, none :: d.done⟩ b

/-- What has been read, in order; a character still open is an ill-formed run. -/
def Decoder.finish (d : Decoder) : List (Option Char) :=
  (if d.pending.isSome then none :: d.done else d.done).reverse

/-- The characters of a byte sequence, with `none` for each ill-formed run. -/
def decodeRuns (bs : Bytes) : List (Option Char) :=
  (bs.foldl Decoder.push {}).finish

/-- The text that the bytes write, if they are well-formed. -/
def decode? (bs : Bytes) : Option String :=
  let runs := decodeRuns bs
  if runs.all Option.isSome then some (String.ofList (runs.filterMap id)) else none

/-- The text that the bytes write, with `U+FFFD` for each ill-formed run. -/
def decodeLossy (bs : Bytes) : String :=
  String.ofList ((decodeRuns bs).map (·.getD (Char.ofNat 0xFFFD)))

end Text
end FlashVolume

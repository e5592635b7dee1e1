import FlashVolume.Text.Utf8
import Mathlib.Data.String.Basic
/-!
# Texts are read back from their bytes

Behind the first byte of a character come its continuation bytes, each with six bits of the code
point, from the top (`tailBytes`). An open character has the bits above those that are still owed.
The next byte, if it is in the bounds, leads to one that has six bits more, or to the character
(`foldl_push_tailBytes`). The bounds are narrower behind four of the first bytes only:

| first byte | next byte | code points that are left out |
| --- | --- | --- |
| `E0` | from `A0` | below `U+0800`, which two bytes write |
| `ED` | up to `9F` | the surrogates, which are no characters |
| `F0` | from `90` | below `U+10000`, which three bytes write |
| `F4` | up to `8F` | above `U+10FFFF` |

No character is left out, so a text is read back from its bytes (`decodeLossy_encode`), and what is
read from a byte between two characters on is the rest of the text (`drop_encode`).
-/

namespace FlashVolume
namespace Text

/-! ### Bytes of a text -/

/-- Joined texts are encoded one after the other. -/
theorem encode_append (s t : String) : encode (s ++ t) = encode s ++ encode t := by
  rw [encode, String.toList_append, List.flatMap_append]
  rfl

/-- An encoded text has the bytes that are counted for it. -/
theorem length_encode (s : String) : (encode s).length = byteLength s := by
  rw [byteLength, String.utf8ByteSize, ← String.utf8Encode_toList, List.utf8Encode,
    List.size_toByteArray]
  rfl

/-- A text that has some of the characters of another, in their order, has no more bytes. -/
theorem byteLength_le_of_sublist {s t : String} (h : s.toList.Sublist t.toList) :
    byteLength s ≤ byteLength t := by
  have hbytes : ∀ {cs ds : List Char}, cs.Sublist ds →
      (cs.flatMap String.utf8EncodeChar).Sublist (ds.flatMap String.utf8EncodeChar) := by
    intro cs ds h
    induction h with
    | slnil => exact .slnil
    | cons d h ih => exact ih.trans (List.sublist_append_right _ _)
    | cons_cons d h ih => exact ih.append_left _
  rw [← length_encode, ← length_encode]
  exact (hbytes h).length_le

/-- **Between two characters,** the bytes from there on are those of the rest. -/
theorem drop_encode (s t : String) : (encode (s ++ t)).drop (byteLength s) = encode t := by
  rw [encode_append, ← length_encode, List.drop_left]

/-! ### One character -/

/-- The last continuation bytes of a code point. -/
def tailBytes (n : Nat) : Nat → Bytes
  | 0 => []
  | k + 1 => UInt8.ofNat (n / 64 ^ k % 64 + 128) :: tailBytes n k

/-- One byte behind the first holds six bits. -/
theorem tailBytes_one (n : Nat) : tailBytes n 1 = [UInt8.ofNat (n % 64 + 128)] := by
  simp only [tailBytes, pow_zero, Nat.div_one]

/-- Two hold twelve. -/
theorem tailBytes_two (n : Nat) :
    tailBytes n 2 = [UInt8.ofNat (n / 64 % 64 + 128), UInt8.ofNat (n % 64 + 128)] := by
  simp only [tailBytes, pow_zero, pow_one, Nat.div_one]

/-- Three hold eighteen. -/
theorem tailBytes_three (n : Nat) : tailBytes n 3 = [UInt8.ofNat (n / 4096 % 64 + 128),
    UInt8.ofNat (n / 64 % 64 + 128), UInt8.ofNat (n % 64 + 128)] := by
  simp only [tailBytes, pow_zero, pow_one, Nat.div_one, Nat.reducePow]

section Tail

variable {n k low high : Nat} (hlow : low ≤ n / 64 ^ k % 64 + 128)
  (hhigh : n / 64 ^ k % 64 + 128 ≤ high)
include hlow hhigh

/-- What the next continuation byte does to an open character. -/
theorem nextByte_tail :
    nextByte ⟨n / 64 ^ (k + 1), k + 1, low, high⟩ (UInt8.ofNat (n / 64 ^ k % 64 + 128)) =
      if k = 0 then .char (Char.ofNat n) else .more ⟨n / 64 ^ k, k, 0x80, 0xBF⟩ := by
  have hsix : n / 64 ^ k % 64 < 64 := Nat.mod_lt _ (by decide)
  have hbyte : (UInt8.ofNat (n / 64 ^ k % 64 + 128)).toNat = n / 64 ^ k % 64 + 128 := by
    rw [UInt8.toNat_ofNat', Nat.mod_eq_of_lt (by omega)]
  have hbits : n / 64 ^ (k + 1) * 64 + n / 64 ^ k % 64 = n / 64 ^ k := by
    rw [Nat.pow_succ, ← Nat.div_div_eq_div_mul, Nat.div_add_mod']
  simp only [nextByte, hbyte, if_pos (And.intro hlow hhigh), Nat.add_sub_cancel, hbits]
  by_cases hk : k = 0
  · subst hk
    simp only [Nat.zero_add, Nat.le_refl, if_true, pow_zero, Nat.div_one]
  · rw [if_neg hk, if_neg (by omega)]

/-- **The continuation bytes complete the character.** -/
theorem foldl_push_tailBytes (done : List (Option Char)) :
    (tailBytes n (k + 1)).foldl Decoder.push ⟨some ⟨n / 64 ^ (k + 1), k + 1, low, high⟩, done⟩ =
      ⟨none, some (Char.ofNat n) :: done⟩ := by
  -- By induction on the bytes that are owed. Behind the next one the bounds are those of any other.
  induction k generalizing low high with
  | zero =>
    simp only [tailBytes, List.foldl_cons, List.foldl_nil, Decoder.push, nextByte_tail hlow hhigh,
      if_true]
  | succ k ih =>
    have hsix : n / 64 ^ k % 64 < 64 := Nat.mod_lt _ (by decide)
    rw [tailBytes, List.foldl_cons]
    simp only [Decoder.push, nextByte_tail hlow hhigh, Nat.succ_ne_zero, if_false]
    exact ih (Nat.le_add_left _ _) (by omega)

end Tail

/-! What the first byte of a character leaves open, by the number of bytes. -/

/-- A byte below 128 is a character by itself. -/
theorem firstByte_one {n : Nat} (h : n ≤ 0x7F) :
    firstByte (UInt8.ofNat n) = .char (Char.ofNat n) := by
  have hbyte : (UInt8.ofNat n).toNat = n := by
    rw [UInt8.toNat_ofNat', Nat.mod_eq_of_lt (by omega)]
  rw [firstByte, hbyte]
  exact if_pos h

/-- Two bytes are announced by `110`, and short forms are refused. -/
theorem firstByte_two : ∀ m < 32, 2 ≤ m →
    firstByte (UInt8.ofNat (m + 192)) = .more ⟨m, 1, 0x80, 0xBF⟩ := by
  decide

/-- Three bytes are announced by `1110`, and neither short forms nor surrogates may follow. -/
theorem firstByte_three : ∀ m < 16, firstByte (UInt8.ofNat (m + 224)) =
    .more ⟨m, 2, if m = 0 then 0xA0 else 0x80, if m = 0xD then 0x9F else 0xBF⟩ := by
  decide

/-- Four bytes are announced by `11110`, and nothing above the last character may follow. -/
theorem firstByte_four : ∀ m < 5, firstByte (UInt8.ofNat (m + 240)) =
    .more ⟨m, 3, if m = 0 then 0x90 else 0x80, if m = 4 then 0x8F else 0xBF⟩ := by
  decide

/-- A character is a number that has one, and no surrogate. -/
theorem toNat_valid (c : Char) : c.toNat < 0xD800 ∨ 0xDFFF < c.toNat ∧ c.toNat < 0x110000 :=
  c.valid

/-- **A character has one byte, or a first byte that leaves it open and its continuation bytes.** -/
theorem utf8EncodeChar_cases (c : Char) :
    (∃ b, String.utf8EncodeChar c = [b] ∧ firstByte b = .char c) ∨
      ∃ b k low high, String.utf8EncodeChar c = b :: tailBytes c.toNat (k + 1) ∧
        firstByte b = .more ⟨c.toNat / 64 ^ (k + 1), k + 1, low, high⟩ ∧
        low ≤ c.toNat / 64 ^ k % 64 + 128 ∧ c.toNat / 64 ^ k % 64 + 128 ≤ high := by
  -- The bounds of the byte behind `ED` are where it counts that there are no surrogates.
  have hvalid := toNat_valid c
  have hchar : Char.ofNat c.toNat = c := Char.ofNat_toNat c
  have hval : c.val.toNat = c.toNat := rfl
  simp only [String.utf8EncodeChar, hval]
  generalize c.toNat = n at *
  by_cases hone : n ≤ 0x7F
  · rw [if_pos hone]
    exact .inl ⟨_, rfl, hchar ▸ firstByte_one hone⟩
  right
  rw [if_neg hone]
  by_cases htwo : n ≤ 0x7FF
  · have htop : n / 64 % 32 = n / 64 := by omega
    rw [if_pos htwo, htop, ← tailBytes_one]
    exact ⟨_, 0, _, _, rfl, firstByte_two (n / 64) (by omega) (by omega), by omega, by omega⟩
  rw [if_neg htwo]
  by_cases hthree : n ≤ 0xFFFF
  · have htop : n / 4096 % 16 = n / 4096 := by omega
    rw [if_pos hthree, htop, ← tailBytes_two]
    refine ⟨_, 1, _, _, rfl, firstByte_three (n / 4096) (by omega), ?_, ?_⟩ <;> split <;> omega
  · have htop : n / 262144 % 8 = n / 262144 := by omega
    rw [if_neg hthree, htop, ← tailBytes_three]
    refine ⟨_, 2, _, _, rfl, firstByte_four (n / 262144) (by omega), ?_, ?_⟩ <;> split <;> omega

/-- **The bytes of a character are read as the character.** -/
theorem foldl_push_utf8EncodeChar (c : Char) (done : List (Option Char)) :
    (String.utf8EncodeChar c).foldl Decoder.push ⟨none, done⟩ = ⟨none, some c :: done⟩ := by
  rcases utf8EncodeChar_cases c with
    ⟨b, hbytes, hfirst⟩ | ⟨b, k, low, high, hbytes, hfirst, hlow, hhigh⟩
  · simp only [hbytes, List.foldl_cons, List.foldl_nil, Decoder.push, Decoder.start, hfirst]
  · rw [hbytes, List.foldl_cons]
    simp only [Decoder.push, Decoder.start, hfirst]
    rw [foldl_push_tailBytes hlow hhigh, Char.ofNat_toNat]

/-! ### Texts -/

/-- **Decoding an encoded text**: every character comes out, one after the other. -/
theorem foldl_push_flatMap (cs : List Char) (done : List (Option Char)) :
    (cs.flatMap String.utf8EncodeChar).foldl Decoder.push ⟨none, done⟩ =
      ⟨none, (cs.map some).reverse ++ done⟩ := by
  induction cs generalizing done with
  | nil => rfl
  | cons c cs ih =>
    rw [List.flatMap_cons, List.foldl_append, foldl_push_utf8EncodeChar, ih]
    simp

/-- The bytes of a text are the runs of its characters. -/
theorem decodeRuns_encode (s : String) : decodeRuns (encode s) = s.toList.map some := by
  rw [decodeRuns, encode, foldl_push_flatMap]
  simp [Decoder.finish]

/-- **A text is read back from its bytes.** -/
theorem decodeLossy_encode (s : String) : decodeLossy (encode s) = s := by
  have hkept : (fun run : Option Char => run.getD (Char.ofNat 0xFFFD)) ∘ some = id := rfl
  rw [decodeLossy, decodeRuns_encode, List.map_map, hkept, List.map_id, String.ofList_toList]

end Text
end FlashVolume

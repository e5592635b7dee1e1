import FlashVolume.Text.Utf8
import Mathlib.Data.String.Basic
/-!
# The order of texts

Texts are ordered by their characters, and their bytes are in the same order: the first byte of a
character grows with the number of bytes, and among characters of as many bytes the bits come in
order. So a map that is ordered by texts is ordered by bytes.

The texts that start with a stem come one after the other, and the stem comes before all of them
(`isPrefix_of_lt`, `not_lt_of_isPrefix`).
-/

namespace FlashVolume
namespace Text

/-- **The bytes of a character decide,** whatever follows them. -/
theorem utf8EncodeChar_lt {c d : Char} (h : c < d) (xs ys : Bytes) :
    String.utf8EncodeChar c ++ xs < String.utf8EncodeChar d ++ ys := by
  have hless : c.val.toNat < d.val.toNat := h
  have hbound : d.val.toNat < 0x110000 := by
    have hvalid := d.valid
    simp only [UInt32.isValidChar, Nat.isValidChar] at hvalid
    omega
  rw [String.utf8EncodeChar, String.utf8EncodeChar]
  generalize c.val.toNat = m at *
  generalize d.val.toNat = n at *
  -- One case for each number of bytes of the two; no remainder is taken for a byte.
  repeat' split
  all_goals
    simp (disch := omega) only [List.cons_append, List.nil_append, List.cons_lt_cons_iff,
      UInt8.lt_iff_toNat_lt, ← UInt8.toNat_inj, UInt8.toNat_ofNat', Nat.mod_eq_of_lt]
  all_goals omega

/-- Encoding keeps the order of the characters. -/
theorem flatMap_utf8EncodeChar_lt {cs ds : List Char} (h : cs < ds) :
    cs.flatMap String.utf8EncodeChar < ds.flatMap String.utf8EncodeChar := by
  induction cs generalizing ds with
  | nil =>
    cases ds with
    | nil => exact absurd h (List.not_lt_nil _)
    | cons d ds =>
      have hsome : String.utf8EncodeChar d ++ ds.flatMap String.utf8EncodeChar ≠ [] := by
        simp [String.utf8EncodeChar_ne_nil]
      obtain ⟨b, bs, hbytes⟩ := List.exists_cons_of_ne_nil hsome
      rw [List.flatMap_nil, List.flatMap_cons, hbytes]
      exact List.nil_lt_cons b bs
  | cons c cs ih =>
    cases ds with
    | nil => exact absurd h (List.not_lt_nil _)
    | cons d ds =>
      rw [List.flatMap_cons, List.flatMap_cons]
      rcases List.cons_lt_cons_iff.1 h with hless | ⟨rfl, hrest⟩
      · exact utf8EncodeChar_lt hless _ _
      · exact List.append_left_lt (ih hrest)

/-- **Texts are in the order of their bytes.** -/
theorem encode_lt {s t : String} (h : s < t) : encode s < encode t :=
  flatMap_utf8EncodeChar_lt (String.lt_iff_toList_lt.1 h)

/-- What texts start with in common does not count for their order. -/
theorem append_lt_append_iff {stem s t : String} : stem ++ s < stem ++ t ↔ s < t := by
  rw [String.lt_iff_toList_lt, String.lt_iff_toList_lt, String.toList_append, String.toList_append]
  induction stem.toList with
  | nil => rfl
  | cons c cs ih => simp [ih]

/-! ### Stems -/

/-- A text does not come before its stem. -/
theorem not_lt_of_isPrefix {stem s : String} (h : stem.toList <+: s.toList) : ¬s < stem := by
  rw [String.lt_iff_toList_lt]
  obtain ⟨rest, hs⟩ := h
  rw [← hs]
  induction stem.toList with
  | nil => exact List.not_lt_nil _
  | cons c cs ih => simpa using ih

/-- What stands between a text and one that starts with it starts with it too. -/
theorem isPrefix_of_lt_chars {stem cs ds : List Char} (hfrom : ¬cs < stem) (hless : cs < ds)
    (hstart : stem <+: ds) : stem <+: cs := by
  induction stem generalizing cs ds with
  | nil => exact List.nil_prefix
  | cons c stem ih =>
    obtain ⟨rest, rfl⟩ := hstart
    cases cs with
    | nil => exact absurd (List.nil_lt_cons c stem) hfrom
    | cons d cs =>
      rw [List.cons_lt_cons_iff, not_or, not_and] at hfrom
      -- The first character is neither before nor behind that of the stem.
      rcases List.cons_lt_cons_iff.1 hless with hbefore | ⟨rfl, hrest⟩
      · exact absurd hbefore hfrom.1
      · have hrec : stem <+: cs := ih (hfrom.2 rfl) hrest (List.prefix_append stem rest)
        exact (List.cons_prefix_cons).2 ⟨rfl, hrec⟩

/-- **Between a stem and a text that starts with it, every text starts with it.** -/
theorem isPrefix_of_lt {stem s t : String} (hfrom : ¬s < stem) (hless : s < t)
    (hstart : stem.toList <+: t.toList) : stem.toList <+: s.toList := by
  rw [String.lt_iff_toList_lt] at hfrom hless
  exact isPrefix_of_lt_chars hfrom hless hstart

end Text
end FlashVolume

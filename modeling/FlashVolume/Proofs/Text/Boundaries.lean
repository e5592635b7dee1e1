import FlashVolume.Proofs.Text.Utf8
/-!
# Where a text can be cut

A text in bytes can be cut between two characters only. Such a position shows in the bytes: no byte
begins a character that can also continue one.

| position | what stands there |
| --- | --- |
| the start, the end | |
| in front of a character | a byte below `80`, or one from `C2` to `F4` |
| inside a character | a byte from `80` to `BF` |

So the boundaries are the lengths of the beginnings of the text (`isBoundary_encode_iff`), and going
back from a position, byte by byte, to the first boundary cuts off the longest beginning that ends
no later (`encode_takeBytes`).
-/

namespace FlashVolume
namespace Text

/-- The byte continues a character. -/
def IsContinuation (b : UInt8) : Prop :=
  0x80 ≤ b.toNat ∧ b.toNat ≤ 0xBF

instance : DecidablePred IsContinuation :=
  fun _ => inferInstanceAs (Decidable (_ ∧ _))

/-- The bytes can be cut at the position: at the start, at the end, or in front of a byte that
begins a character. -/
def IsBoundary (bs : Bytes) (n : Nat) : Prop :=
  n = 0 ∨ n = bs.length ∨ ∃ b ∈ bs[n]?, ¬IsContinuation b

instance (bs : Bytes) (n : Nat) : Decidable (IsBoundary bs n) :=
  inferInstanceAs (Decidable (_ ∨ _ ∨ _))

/-- The boundary that is reached from a position by going back byte by byte. -/
def cutBack (bs : Bytes) : Nat → Nat
  | 0 => 0
  | n + 1 => if IsBoundary bs (n + 1) then n + 1 else cutBack bs n

/-- The text is the longest beginning of another that takes at most `n` bytes. -/
structure IsLongestStart (n : Nat) (s start : String) : Prop where
  isPrefix : start.toList <+: s.toList
  fits : byteLength start ≤ n
  longest : ∀ other : String, other.toList <+: s.toList → byteLength other ≤ n →
    other.toList <+: start.toList

/-! ### Going back -/

section CutBack

variable (bs : Bytes) (n : Nat)

/-- **Going back ends at a boundary.** -/
theorem isBoundary_cutBack : IsBoundary bs (cutBack bs n) := by
  induction n with
  | zero => exact .inl rfl
  | succ n ih =>
    rw [cutBack]
    split
    · assumption
    · exact ih

/-- The cut only moves back. -/
theorem cutBack_le : cutBack bs n ≤ n := by
  induction n with
  | zero => exact Nat.le_refl 0
  | succ n ih =>
    rw [cutBack]
    split
    · exact Nat.le_refl _
    · exact Nat.le_succ_of_le ih

/-- Going back passes no boundary. -/
theorem le_cutBack {bs : Bytes} {m n : Nat} (hm : IsBoundary bs m) (hle : m ≤ n) :
    m ≤ cutBack bs n := by
  induction n with
  | zero => exact hle
  | succ n ih =>
    rw [cutBack]
    split
    · exact hle
    · next hn =>
      have hne : m ≠ n + 1 := by
        rintro rfl
        exact hn hm
      exact ih (by omega)

end CutBack

/-! ### Boundaries -/

/-- The bytes behind the first one continue a character. -/
theorem isContinuation_of_mem_tailBytes {n k : Nat} {b : UInt8} (h : b ∈ tailBytes n k) :
    IsContinuation b := by
  induction k with
  | zero => cases h
  | succ k ih =>
    rcases List.mem_cons.1 h with rfl | h
    · have hsix : n / 64 ^ k % 64 < 64 := Nat.mod_lt _ (by decide)
      rw [IsContinuation, UInt8.toNat_ofNat', Nat.mod_eq_of_lt (by omega)]
      omega
    · exact ih h

/-- A byte that begins a character continues none. -/
theorem not_isContinuation_of_firstByte {b : UInt8} (h : firstByte b ≠ .refuse) :
    ¬IsContinuation b := by
  rintro ⟨hlow, hhigh⟩
  refine h ?_
  rw [firstByte]
  exact (if_neg (by omega)).trans (if_pos (by omega))

/-- **A character is a byte that begins it and bytes that continue it.** -/
theorem exists_utf8EncodeChar (c : Char) :
    ∃ b bs, String.utf8EncodeChar c = b :: bs ∧ ¬IsContinuation b ∧ ∀ x ∈ bs, IsContinuation x := by
  rcases utf8EncodeChar_cases c with ⟨b, hbytes, hfirst⟩ | ⟨b, k, low, high, hbytes, hfirst, -, -⟩
  · refine ⟨b, [], hbytes, not_isContinuation_of_firstByte ?_, List.forall_mem_nil _⟩
    rw [hfirst]
    exact ByteStep.noConfusion
  · refine ⟨b, _, hbytes, not_isContinuation_of_firstByte ?_,
      fun x hx => isContinuation_of_mem_tailBytes hx⟩
    rw [hfirst]
    exact ByteStep.noConfusion

/-- The bytes of characters start with one that begins a character. -/
theorem isBoundary_of_head {bs : Bytes} (h : ∀ b ∈ bs.head?, ¬IsContinuation b) (front : Bytes) :
    IsBoundary (front ++ bs) front.length := by
  cases bs with
  | nil => exact .inr (.inl (by rw [List.append_nil]))
  | cons b bs => exact .inr (.inr ⟨b, by simp, h b rfl⟩)

/-- An encoded text starts with no continuation. -/
theorem head_flatMap (cs : List Char) :
    ∀ b ∈ (cs.flatMap String.utf8EncodeChar).head?, ¬IsContinuation b := by
  cases cs with
  | nil => simp
  | cons c cs =>
    obtain ⟨b, bs, hbytes, hfirst, -⟩ := exists_utf8EncodeChar c
    rw [List.flatMap_cons, hbytes]
    rintro x ⟨⟩
    exact hfirst

/-- A boundary behind the start is one behind the first character. -/
theorem isBoundary_append_iff {b : UInt8} {bs rest : Bytes} {n : Nat}
    (hinside : ∀ x ∈ bs, IsContinuation x) (hrest : ∀ x ∈ rest.head?, ¬IsContinuation x) :
    IsBoundary (b :: bs ++ rest) n ↔
      n = 0 ∨ ∃ m, n = (b :: bs).length + m ∧ IsBoundary rest m := by
  constructor
  · rintro (rfl | rfl | ⟨x, hx, hbegins⟩)
    · exact .inl rfl
    · exact .inr ⟨rest.length, List.length_append, .inr (.inl rfl)⟩
    · by_cases hn : n < (b :: bs).length
      · -- Inside the first character there are continuation bytes only.
        cases n with
        | zero => exact .inl rfl
        | succ n =>
          rw [List.getElem?_append_left hn, List.getElem?_cons_succ] at hx
          exact absurd (hinside x (List.mem_of_getElem? hx)) hbegins
      · have hle : (b :: bs).length ≤ n := Nat.le_of_not_lt hn
        rw [List.getElem?_append_right hle] at hx
        exact .inr ⟨n - (b :: bs).length, by omega, .inr (.inr ⟨x, hx, hbegins⟩)⟩
  · rintro (rfl | ⟨m, rfl, rfl | rfl | ⟨x, hx, hbegins⟩⟩)
    · exact .inl rfl
    · exact isBoundary_of_head hrest (b :: bs)
    · exact .inr (.inl List.length_append.symm)
    · refine .inr (.inr ⟨x, ?_, hbegins⟩)
      rw [List.getElem?_append_right (Nat.le_add_right _ _), Nat.add_sub_cancel_left]
      exact hx

/-- The boundaries of an encoded text are where its fronts end. -/
theorem isBoundary_flatMap_iff {cs : List Char} {n : Nat} :
    IsBoundary (cs.flatMap String.utf8EncodeChar) n ↔
      ∃ ds, ds <+: cs ∧ (ds.flatMap String.utf8EncodeChar).length = n := by
  induction cs generalizing n with
  | nil => simp [IsBoundary, eq_comm]
  | cons c cs ih =>
    obtain ⟨b, bs, hbytes, -, hinside⟩ := exists_utf8EncodeChar c
    rw [List.flatMap_cons, hbytes, isBoundary_append_iff hinside (head_flatMap cs)]
    constructor
    · rintro (rfl | ⟨m, rfl, hm⟩)
      · exact ⟨[], List.nil_prefix, rfl⟩
      · obtain ⟨ds, hds, rfl⟩ := ih.1 hm
        exact ⟨c :: ds, List.cons_prefix_cons.2 ⟨rfl, hds⟩, by
          rw [List.flatMap_cons, hbytes, List.length_append]⟩
    · rintro ⟨ds, hds, rfl⟩
      cases ds with
      | nil => exact .inl rfl
      | cons d ds =>
        obtain ⟨rfl, hrest⟩ := List.cons_prefix_cons.1 hds
        refine .inr ⟨(ds.flatMap String.utf8EncodeChar).length, ?_, ih.2 ⟨ds, hrest, rfl⟩⟩
        rw [List.flatMap_cons, hbytes, List.length_append]

/-- **The boundaries of a text are the lengths of its beginnings.** -/
theorem isBoundary_encode_iff {s : String} {n : Nat} :
    IsBoundary (encode s) n ↔
      ∃ start : String, start.toList <+: s.toList ∧ byteLength start = n := by
  rw [encode, isBoundary_flatMap_iff]
  constructor
  · rintro ⟨ds, hds, rfl⟩
    refine ⟨String.ofList ds, by rwa [String.toList_ofList], ?_⟩
    rw [← length_encode, encode, String.toList_ofList]
  · rintro ⟨start, hstart, rfl⟩
    exact ⟨start.toList, hstart, length_encode start⟩

/-! ### The longest beginning -/

/-- The characters that are taken stand in front. -/
theorem takeBytesChars_prefix (n : Nat) (cs : List Char) : takeBytesChars n cs <+: cs := by
  fun_induction takeBytesChars n cs with
  | case1 n => exact List.nil_prefix
  | case2 n c cs hfits ih => exact List.cons_prefix_cons.2 ⟨rfl, ih⟩
  | case3 n c cs hlong => exact List.nil_prefix

/-- The first character adds its own bytes. -/
theorem byteLength_ofList_cons (c : Char) (cs : List Char) :
    byteLength (String.ofList (c :: cs)) = c.utf8Size + byteLength (String.ofList cs) := by
  simp [byteLength]

/-- What is taken fits. -/
theorem byteLength_takeBytesChars_le (n : Nat) (cs : List Char) :
    byteLength (String.ofList (takeBytesChars n cs)) ≤ n := by
  fun_induction takeBytesChars n cs with
  | case1 n => exact Nat.zero_le n
  | case2 n c cs hfits ih =>
    rw [byteLength_ofList_cons]
    omega
  | case3 n c cs hlong => exact Nat.zero_le n

/-- A beginning that fits is taken. -/
theorem prefix_takeBytesChars {n : Nat} {cs ds : List Char} (hbegin : ds <+: cs)
    (hfits : byteLength (String.ofList ds) ≤ n) : ds <+: takeBytesChars n cs := by
  induction cs generalizing n ds with
  | nil => rwa [takeBytesChars]
  | cons c cs ih =>
    cases ds with
    | nil => exact List.nil_prefix
    | cons d ds =>
      obtain ⟨rfl, hrest⟩ := List.cons_prefix_cons.1 hbegin
      rw [byteLength_ofList_cons] at hfits
      rw [takeBytesChars, if_pos (by omega)]
      exact List.cons_prefix_cons.2 ⟨rfl, ih hrest (by omega)⟩

/-- **What is taken is the longest beginning that fits.** -/
theorem isLongestStart_takeBytes (n : Nat) (s : String) : IsLongestStart n s (takeBytes n s) where
  isPrefix := by
    rw [takeBytes, String.toList_ofList]
    exact takeBytesChars_prefix n s.toList
  fits := byteLength_takeBytesChars_le n s.toList
  longest := by
    intro other hbegin hfits
    rw [takeBytes, String.toList_ofList]
    exact prefix_takeBytesChars hbegin (by rwa [String.ofList_toList])

/-- What is taken fits. -/
theorem byteLength_takeBytes_le (n : Nat) (s : String) : byteLength (takeBytes n s) ≤ n :=
  (isLongestStart_takeBytes n s).fits

/-- A text that fits is not cut. -/
theorem takeBytes_of_fits {s : String} {n : Nat} (h : byteLength s ≤ n) : takeBytes n s = s := by
  have hstart := isLongestStart_takeBytes n s
  have hwhole := hstart.longest s List.prefix_rfl h
  exact String.toList_inj.1 (hstart.isPrefix.eq_of_length_le hwhole.length_le)

/-- **Going back from the capacity finds where the longest beginning ends.** -/
theorem byteLength_takeBytes (n : Nat) (s : String) :
    byteLength (takeBytes n s) = cutBack (encode s) n := by
  have hstart := isLongestStart_takeBytes n s
  have hboundary : IsBoundary (encode s) (byteLength (takeBytes n s)) :=
    isBoundary_encode_iff.2 ⟨_, hstart.isPrefix, rfl⟩
  obtain ⟨other, hbegin, hother⟩ := isBoundary_encode_iff.1 (isBoundary_cutBack (encode s) n)
  have hfits : byteLength other ≤ n := hother ▸ cutBack_le (encode s) n
  have hless := byteLength_le_of_sublist (hstart.longest other hbegin hfits).sublist
  have hmore := le_cutBack hboundary hstart.fits
  omega

/-- **Cutting the bytes there leaves the longest beginning.** -/
theorem encode_takeBytes (n : Nat) (s : String) :
    encode (takeBytes n s) = (encode s).take (cutBack (encode s) n) := by
  obtain ⟨rest, hrest⟩ := (isLongestStart_takeBytes n s).isPrefix
  have hsplit : encode s = encode (takeBytes n s) ++ rest.flatMap String.utf8EncodeChar := by
    rw [encode, ← hrest, List.flatMap_append]
    rfl
  rw [← byteLength_takeBytes, ← length_encode, hsplit, List.take_left]

end Text
end FlashVolume

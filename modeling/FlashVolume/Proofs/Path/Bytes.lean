import FlashVolume.Proofs.Path.Segments
/-!
# Clean paths, byte by byte

`normalizeChars` can be run on the bytes of a path, each byte taken as a character of its own. The
bytes it writes are then the bytes of the clean path, so a path that is read byte by byte is never
cut inside a character (`normalizeChars_byteChars`).

UTF-8 writes `/` and `.` as one byte, and none of those two bytes into another character. A
substitution of characters with that property is `Transparent`: it changes no segment into `.`,
into `..` or into nothing, so the machine over the segments does not notice it.
-/

namespace FlashVolume
namespace Path

/-- A substitution of characters that keeps `/` and `.`, and puts neither in place of another
character. -/
structure Transparent (f : Char → List Char) : Prop where
  separator : f '/' = ['/']
  dot : f '.' = ['.']
  ne_nil : ∀ c, f c ≠ []
  separator_notMem : ∀ c, c ≠ '/' → '/' ∉ f c
  dot_notMem : ∀ c, c ≠ '.' → '.' ∉ f c

namespace Transparent

variable {f : Char → List Char}

/-- A transparent coding makes no separators. -/
theorem notMem_flatMap (hf : Transparent f) {segment : List Char} (hsep : '/' ∉ segment) :
    '/' ∉ segment.flatMap f := by
  intro h
  obtain ⟨c, hc, hmem⟩ := List.mem_flatMap.1 h
  refine hf.separator_notMem c ?_ hmem
  rintro rfl
  exact hsep hc

/-- A transparent coding leaves nothing out. -/
theorem flatMap_eq_nil (hf : Transparent f) (segment : List Char) :
    segment.flatMap f = [] ↔ segment = [] := by
  cases segment with
  | nil => simp
  | cons c segment => simp [hf.ne_nil c]

/-- A text of dots is not substituted, and nothing else becomes one. -/
theorem flatMap_eq_dots (hf : Transparent f) (segment : List Char) (n : Nat) :
    segment.flatMap f = List.replicate n '.' ↔ segment = List.replicate n '.' := by
  induction segment generalizing n with
  | nil => cases n <;> simp [List.replicate_succ]
  | cons c segment ih =>
    cases n with
    | zero => simp [hf.ne_nil c]
    | succ n =>
      by_cases hc : c = '.'
      · subst hc
        simp [hf.dot, List.replicate_succ, ih]
      · have hne : (c :: segment).flatMap f ≠ List.replicate (n + 1) '.' := by
          intro h
          obtain ⟨d, rest, hd⟩ := List.exists_cons_of_ne_nil (hf.ne_nil c)
          have hmem : d ∈ List.replicate (n + 1) '.' := by rw [← h]; simp [hd]
          obtain rfl := (List.mem_replicate.1 hmem).2
          exact hf.dot_notMem c hc (by simp [hd])
        rw [iff_false_left hne, List.replicate_succ]
        simp [hc]

/-- **The stack does not notice a transparent substitution.** -/
theorem stackSegment (hf : Transparent f) (stack : List (List Char)) (segment : List Char) :
    Path.stackSegment (stack.map (·.flatMap f)) (segment.flatMap f) =
      (Path.stackSegment stack segment).map (·.map (·.flatMap f)) := by
  have hdot : segment.flatMap f = ['.'] ↔ segment = ['.'] := hf.flatMap_eq_dots segment 1
  have hdots : segment.flatMap f = ['.', '.'] ↔ segment = ['.', '.'] :=
    hf.flatMap_eq_dots segment 2
  simp only [Path.stackSegment, hf.flatMap_eq_nil, hdot, hdots, List.length_map]
  split_ifs <;> simp

/-- The segments of the code are stacked as those of the text. -/
theorem foldlM_stackSegment (hf : Transparent f) (segments stack : List (List Char)) :
    (segments.map (·.flatMap f)).foldlM Path.stackSegment (stack.map (·.flatMap f)) =
      (segments.foldlM Path.stackSegment stack).map (·.map (·.flatMap f)) := by
  induction segments generalizing stack with
  | nil => rfl
  | cons segment segments ih =>
    rw [List.map_cons, List.foldlM_cons, List.foldlM_cons, hf.stackSegment]
    cases Path.stackSegment stack segment with
    | none => rfl
    | some stack' => exact ih stack'

/-- So is a whole path. -/
theorem stackSegments (hf : Transparent f) (rooted : Bool) (segments : List (List Char)) :
    Path.stackSegments rooted (segments.map (·.flatMap f)) =
      (Path.stackSegments rooted segments).map (·.map (·.flatMap f)) := by
  cases segments with
  | nil => rfl
  | cons first rest =>
    cases rooted with
    | true => exact hf.foldlM_stackSegment (first :: rest) []
    | false => exact hf.foldlM_stackSegment rest [first]

/-- What a stack spells is coded segment by segment. -/
theorem trail_reverse (hf : Transparent f) (rooted : Bool) (stack : List (List Char)) :
    (trail (rootMark rooted) (stack.map (·.flatMap f))).reverse =
      (trail (rootMark rooted) stack).reverse.flatMap f := by
  induction stack with
  | nil => cases rooted <;> simp [rootMark, hf.separator]
  | cons segment stack ih => simp [ih, hf.separator]

/-- **Cleaning commutes with a transparent substitution.** -/
theorem normalizeChars (hf : Transparent f) (cs : List Char) :
    Path.normalizeChars (cs.flatMap f) = (Path.normalizeChars cs).map (·.flatMap f) := by
  obtain ⟨segments, last, hsep, hlast, rfl⟩ := exists_segments cs
  have hjoin : (segments.flatMap (· ++ ['/']) ++ last).flatMap f =
      (segments.map (·.flatMap f)).flatMap (· ++ ['/']) ++ last.flatMap f := by
    simp [List.flatMap_map, List.flatMap_assoc, hf.separator]
  have hsep' : ∀ segment ∈ segments.map (·.flatMap f), '/' ∉ segment := by
    intro segment hsegment
    obtain ⟨segment, hmem, rfl⟩ := List.mem_map.1 hsegment
    exact hf.notMem_flatMap (hsep segment hmem)
  have hroot : ((segments.map (·.flatMap f)).head? = some []) = (segments.head? = some []) := by
    cases segments <;> simp [hf.flatMap_eq_nil]
  rw [normalizeChars_eq_cleanSegments, normalizeChars_eq_cleanSegments, hjoin,
    cleanSegments_segments hsep' (hf.notMem_flatMap hlast), cleanSegments_segments hsep hlast]
  simp only [hroot, hf.stackSegments, Option.map_map]
  congr 1
  funext stack
  simp [hf.trail_reverse]

end Transparent

/-! ### UTF-8 -/

/-- The bytes of a text, each as the character with its number. -/
def byteChars (s : String) : List Char :=
  (Text.encode s).map Char.ofUInt8

/-- The bytes of a character, each as the character with its number. -/
def charBytes (c : Char) : List Char :=
  (String.utf8EncodeChar c).map Char.ofUInt8

/-- The bytes of a text are those of its characters. -/
theorem byteChars_ofList (cs : List Char) :
    byteChars (String.ofList cs) = cs.flatMap charBytes := by
  rw [byteChars, Text.encode, String.toList_ofList, List.map_flatMap]
  rfl

/-- A byte below 128 stands for the character with its number alone. -/
theorem toNat_of_mem_utf8EncodeChar {c : Char} {b : UInt8} (h : b ∈ String.utf8EncodeChar c)
    (hb : b.toNat < 128) : c.toNat = b.toNat := by
  rw [← Char.toNat_val]
  unfold String.utf8EncodeChar at h
  simp only at h
  split_ifs at h <;> simp only [List.mem_cons, List.not_mem_nil, or_false] at h
  · subst h
    rw [UInt8.toNat_ofNat', Nat.mod_eq_of_lt (by omega)]
  · rcases h with rfl | rfl <;> simp only [UInt8.toNat_ofNat'] at hb <;> omega
  · rcases h with rfl | rfl | rfl <;> simp only [UInt8.toNat_ofNat'] at hb <;> omega
  · rcases h with rfl | rfl | rfl | rfl <;> simp only [UInt8.toNat_ofNat'] at hb <;> omega

/-- An ASCII character is a byte of no other character. -/
theorem eq_of_mem_charBytes {c d : Char} (h : d ∈ charBytes c) (hd : d.toNat < 128) : c = d := by
  obtain ⟨b, hb, rfl⟩ := List.mem_map.1 h
  exact Char.toNat_inj.1 (toNat_of_mem_utf8EncodeChar hb hd)

/-- Characters are coded without making separators. -/
theorem transparent_charBytes : Transparent charBytes where
  separator := by decide
  dot := by decide
  ne_nil c := by simp [charBytes, String.utf8EncodeChar_ne_nil]
  separator_notMem _ hc h := hc (eq_of_mem_charBytes h (by decide))
  dot_notMem _ hc h := hc (eq_of_mem_charBytes h (by decide))

/-- **Read byte by byte, a path is cleaned to the bytes of its clean form.** -/
theorem normalizeChars_byteChars (path : String) :
    normalizeChars (byteChars path) =
      (normalizeChars path.toList).map fun cs => byteChars (String.ofList cs) := by
  have h := transparent_charBytes.normalizeChars path.toList
  rw [← byteChars_ofList, String.ofList_toList] at h
  simp only [h, byteChars_ofList]

/-- **What `normalize` answers.**  Only the empty path is invalid input, and of the others only
those with more bytes than the bound are too long.  Every other path is cleaned by the machine over
its segments, or refused with its own text if it climbs out of the first one.  The pass over the
bytes of the path writes the bytes of the same text, and fails on the same paths. -/
theorem normalize_eq_cleanSegments (path : String) (bound : Nat) :
    ((∃ text, normalize path bound = .error (.invalidInput text)) ↔ path = "") ∧
      ((∃ length limit, normalize path bound = .error (.tooLong length limit)) ↔
        path ≠ "" ∧ bound < Text.byteLength path) ∧
      (normalize path bound =
        if path = "" then .error (.invalidInput "empty path")
        else if bound < Text.byteLength path then .error (.tooLong (Text.byteLength path) bound)
        else
          match cleanSegments path.toList with
          | some cs => .ok (String.ofList cs)
          | none => .error (.malformedTraversal path)) ∧
      normalizeChars (byteChars path) =
        (cleanSegments path.toList).map fun cs => byteChars (String.ofList cs) := by
  have heq : normalize path bound =
      if path = "" then .error (.invalidInput "empty path")
      else if bound < Text.byteLength path then .error (.tooLong (Text.byteLength path) bound)
      else
        match cleanSegments path.toList with
        | some cs => .ok (String.ofList cs)
        | none => .error (.malformedTraversal path) := by
    rw [← normalizeChars_eq_cleanSegments]
    exact if_congr String.isEmpty_iff rfl rfl
  refine ⟨?_, ?_, heq, ?_⟩
  · rw [heq]
    split_ifs with hempty hlong
    · simp [hempty]
    · simp [hempty]
    · cases cleanSegments path.toList <;> simp [hempty]
  · rw [heq]
    split_ifs with hempty hlong
    · simp [hempty]
    · simp [hempty, hlong]
    · cases cleanSegments path.toList <;> simp [hlong]
  · rw [normalizeChars_byteChars, normalizeChars_eq_cleanSegments]

example : cleanSegments "/lfs//a/./b/../ü/..".toList = some "/lfs/a/ü/..".toList := by decide

example : cleanSegments "./a/../..".toList = some "./..".toList := by decide

end Path
end FlashVolume

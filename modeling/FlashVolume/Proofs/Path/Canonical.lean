import FlashVolume.Proofs.Path.Stages
import FlashVolume.Proofs.Text.Utf8
import Mathlib.Data.List.Induction
/-!
# Clean paths stay as they are

Sections 4.1 and 8 of the specification: `normalize` of a clean path.

`normalize` leaves nothing to be cleaned: a path that it has written has none of `//`, `/./` and
`/../` in it (`IsClean`), and a path that has none of them is written as it is. So clean paths are
what it answers and what it does not change (`normalize_retraction`).

A cut takes what has been written back to an earlier point, and what stands there was clean. That is
the invariant of the pass (`Cleaner.Written`), and it also says that the pass goes on from its
output alone. A path can therefore be cleaned piece by piece: what stands in front of a separator
can be cleaned first.
-/

namespace FlashVolume
namespace Path

/-- Nothing in the characters of a path is left to be cleaned. -/
structure IsClean (cs : List Char) : Prop where
  separators : ¬['/', '/'] <:+: cs
  dot : ¬['/', '.', '/'] <:+: cs
  dots : ¬['/', '.', '.', '/'] <:+: cs

namespace IsClean

/-- The empty path is clean. -/
theorem nil : IsClean [] where
  separators := by simp
  dot := by simp
  dots := by simp

/-- A part of a clean path is clean. -/
theorem of_infix {part cs : List Char} (h : IsClean cs) (hpart : part <:+: cs) : IsClean part where
  separators := fun hin => h.separators (hin.trans hpart)
  dot := fun hin => h.dot (hin.trans hpart)
  dots := fun hin => h.dots (hin.trans hpart)

/-- A character in front of a clean path keeps it clean, unless it completes what is to be
cleaned. -/
theorem cons {c : Char} {cs : List Char} (h : IsClean cs) (hseparators : ¬['/', '/'] <+: c :: cs)
    (hdot : ¬['/', '.', '/'] <+: c :: cs) (hdots : ¬['/', '.', '.', '/'] <+: c :: cs) :
    IsClean (c :: cs) where
  separators := fun hin => (List.infix_cons_iff.1 hin).elim hseparators h.separators
  dot := fun hin => (List.infix_cons_iff.1 hin).elim hdot h.dot
  dots := fun hin => (List.infix_cons_iff.1 hin).elim hdots h.dots

/-- What is to be cleaned reads the same from behind. -/
theorem reverse_iff {cs : List Char} : IsClean cs.reverse ↔ IsClean cs := by
  have hturn : ∀ part : List Char, part.reverse = part → (part <:+: cs.reverse ↔ part <:+: cs) := by
    intro part hpart
    rw [← List.reverse_infix, List.reverse_reverse, hpart]
  constructor
  · intro h
    exact ⟨mt (hturn _ rfl).2 h.separators, mt (hturn _ rfl).2 h.dot, mt (hturn _ rfl).2 h.dots⟩
  · intro h
    exact ⟨mt (hturn _ rfl).1 h.separators, mt (hturn _ rfl).1 h.dot, mt (hturn _ rfl).1 h.dots⟩

end IsClean

/-! ### One character -/

namespace Cleaner

/-- Climbing goes back to a separator that has been written before, or cuts nothing. -/
theorem climb_cases {out cut : List Char} (h : climb out = some cut) :
    (∃ before, out = '/' :: '.' :: '.' :: '/' :: before ∧ cut <:+ before ∧
      cut.head? = some '/') ∨
    ¬['/', '.', '.', '/'] <+: out ∧ cut = out := by
  unfold climb at h
  split at h
  · next before =>
    refine .inl ⟨before, rfl, ?_⟩
    split at h
    · next c rest hdrop =>
      obtain rfl := Option.some.inj h
      exact ⟨hdrop ▸ List.dropWhile_suffix _, rfl⟩
    · cases h
  · next hshape =>
    refine .inr ⟨?_, (Option.some.inj h).symm⟩
    rintro ⟨before, rfl⟩
    exact hshape before rfl

/-- Dropping `.` goes back to the separator in front of it, or cuts nothing. -/
theorem dropDot_cases (out : List Char) :
    (∃ before, out = '/' :: '.' :: '/' :: before ∧ dropDot out = '/' :: before) ∨
    ¬['/', '.', '/'] <+: out ∧ dropDot out = out := by
  unfold dropDot
  split
  · next before => exact .inl ⟨before, rfl, rfl⟩
  · next hshape =>
    refine .inr ⟨?_, rfl⟩
    rintro ⟨before, rfl⟩
    exact hshape before rfl

/-- **What one character does:** it is skipped, it takes the output back to a separator, or it is
written and completes neither `/./` nor `/../`. -/
theorem push_cases {s s' : Cleaner} {c : Char} (h : push s c = some s') :
    (c = '/' ∧ s.afterSeparator = true ∧ s' = s) ∨
    (∃ cut, c = '/' ∧ s' = ⟨cut, true⟩ ∧ cut <:+ s.out ∧ cut.head? = some '/') ∨
    (¬(c = '/' ∧ s.afterSeparator = true) ∧ s' = ⟨c :: s.out, c = '/'⟩ ∧
      ¬['/', '.', '/'] <+: c :: s.out ∧ ¬['/', '.', '.', '/'] <+: c :: s.out) := by
  rw [push] at h
  by_cases hskip : c = '/' ∧ s.afterSeparator = true
  · rw [if_pos hskip] at h
    exact .inl ⟨hskip.1, hskip.2, (Option.some.inj h).symm⟩
  · rw [if_neg hskip] at h
    obtain ⟨climbed, hclimb, rfl⟩ := Option.map_eq_some_iff.1 h
    right
    rcases climb_cases hclimb with ⟨before, hout, hsuffix, hhead⟩ | ⟨hdots, rfl⟩
    · obtain ⟨rfl, hrest⟩ := List.cons.inj hout
      have hbefore : climbed <:+ s.out :=
        hrest ▸ hsuffix.trans (List.suffix_append ['.', '.', '/'] before)
      left
      rcases dropDot_cases climbed with ⟨rest, rfl, hdrop⟩ | ⟨-, hdrop⟩
      · refine ⟨'/' :: rest, rfl, by simp [hdrop], ?_, rfl⟩
        exact (List.suffix_append ['/', '.'] ('/' :: rest)).trans hbefore
      · exact ⟨climbed, rfl, by simp [hdrop], hbefore, hhead⟩
    · rcases dropDot_cases (c :: s.out) with ⟨rest, hout, hdrop⟩ | ⟨hdot, hdrop⟩
      · obtain ⟨rfl, hrest⟩ := List.cons.inj hout
        refine .inl ⟨'/' :: rest, rfl, by simp [hdrop], ?_, rfl⟩
        exact hrest ▸ List.suffix_append ['.'] ('/' :: rest)
      · exact .inr ⟨hskip, by rw [hdrop], hdot, hdots⟩

/-- A character that leaves the output clean is written. -/
theorem push_of_isClean {s : Cleaner} {c : Char} (h : IsClean (c :: s.out))
    (hclosed : s.afterSeparator = true → s.out.head? = some '/') :
    push s c = some ⟨c :: s.out, c = '/'⟩ := by
  have hskip : ¬(c = '/' ∧ s.afterSeparator = true) := by
    rintro ⟨rfl, hafter⟩
    obtain ⟨rest, hout⟩ := List.head?_eq_some_iff.1 (hclosed hafter)
    exact h.separators (hout ▸ (List.prefix_append ['/', '/'] rest).isInfix)
  have hclimb : climb (c :: s.out) = some (c :: s.out) := by
    unfold climb
    split
    · next before hout =>
      exact absurd (hout ▸ (List.prefix_append ['/', '.', '.', '/'] before).isInfix) h.dots
    · rfl
  have hdrop : dropDot (c :: s.out) = c :: s.out := by
    rcases dropDot_cases (c :: s.out) with ⟨rest, hout, -⟩ | ⟨-, hdrop⟩
    · exact absurd (hout ▸ (List.prefix_append ['/', '.', '/'] rest).isInfix) h.dot
    · exact hdrop
  rw [push, if_neg hskip, hclimb, Option.map_some, hdrop]

/-! ### The whole pass -/

/-- What has been written of the characters that have been read: it is clean, nothing has been added
or moved, and it shows whether the last of them was a separator. -/
structure Written (read : List Char) (s : Cleaner) : Prop where
  clean : IsClean s.out
  sublist : s.out.reverse.Sublist read
  closed : s.afterSeparator = true ↔ s.out.head? = some '/'
  last : s.afterSeparator = true ↔ read.getLast? = some '/'
  nonempty : read ≠ [] → s.out ≠ []

/-- Nothing is written at the start. -/
theorem Written.start : Written [] {} where
  clean := .nil
  sublist := .refl _
  closed := by simp
  last := by simp
  nonempty h := absurd rfl h

/-- **Reading a character keeps what has been written in order.** -/
theorem Written.push {read : List Char} {s s' : Cleaner} {c : Char} (h : Written read s)
    (hpush : s.push c = some s') : Written (read ++ [c]) s' := by
  have hread : s.out.reverse.Sublist (read ++ [c]) := h.sublist.trans (List.sublist_append_left _ _)
  rcases push_cases hpush with ⟨rfl, hafter, rfl⟩ | ⟨cut, rfl, rfl, hcut, hhead⟩ |
    ⟨hskip, rfl, hdot, hdots⟩
  · refine ⟨h.clean, hread, h.closed, by simp [hafter], fun _ => ?_⟩
    exact List.ne_nil_of_mem (List.mem_of_mem_head? (h.closed.1 hafter))
  · have hsub : cut.reverse.Sublist s.out.reverse := List.reverse_sublist.2 hcut.sublist
    refine ⟨h.clean.of_infix hcut.isInfix, hsub.trans hread, by simp [hhead], by simp,
      fun _ => ?_⟩
    exact List.ne_nil_of_mem (List.mem_of_mem_head? hhead)
  · -- `//` would have been completed behind a separator.
    have hseparators : ¬['/', '/'] <+: c :: s.out := by
      rintro ⟨rest, hout⟩
      obtain ⟨rfl, hrest⟩ := List.cons.inj hout
      exact hskip ⟨rfl, h.closed.2 (by rw [← hrest]; rfl)⟩
    refine ⟨h.clean.cons hseparators hdot hdots, ?_, by simp, by simp,
      fun _ => List.cons_ne_nil _ _⟩
    rw [List.reverse_cons]
    exact h.sublist.append_right [c]

/-- **What has been written stays in order.** -/
theorem written_of_foldlM {cs : List Char} {s : Cleaner} (h : cs.foldlM Cleaner.push {} = some s) :
    Written cs s := by
  induction cs using List.reverseRecOn generalizing s with
  | nil =>
    obtain rfl := Option.some.inj h
    exact .start
  | append_singleton cs c ih =>
    rw [List.foldlM_append] at h
    obtain ⟨mid, hmid, hlast⟩ := Option.bind_eq_some_iff.1 h
    exact (ih hmid).push (by simpa using hlast)

/-- A clean path is written as it is. -/
theorem foldlM_push_of_isClean {cs : List Char} (h : IsClean cs) :
    ∃ after, cs.foldlM Cleaner.push {} = some ⟨cs.reverse, after⟩ := by
  induction cs using List.reverseRecOn with
  | nil => exact ⟨false, rfl⟩
  | append_singleton cs c ih =>
    obtain ⟨after, hfold⟩ := ih (h.of_infix (List.prefix_append cs [c]).isInfix)
    have hclean : IsClean (c :: cs.reverse) := by
      rw [← List.reverse_concat', IsClean.reverse_iff]
      exact h
    have hpush := push_of_isClean hclean (written_of_foldlM hfold).closed.1
    refine ⟨c = '/', ?_⟩
    rw [List.foldlM_append, hfold]
    simpa using hpush

end Cleaner

/-! ### Clean forms -/

variable {cs out : List Char}

/-- What is written of a path is clean, a part of the path, and not empty unless the path is. -/
theorem isClean_of_normalizeChars (h : normalizeChars cs = some out) :
    IsClean out ∧ out.Sublist cs ∧ (cs ≠ [] → out ≠ []) := by
  obtain ⟨s, hfold, rfl⟩ := Option.map_eq_some_iff.1 h
  have hwritten := Cleaner.written_of_foldlM hfold
  refine ⟨IsClean.reverse_iff.2 hwritten.clean, hwritten.sublist, fun hne => ?_⟩
  exact List.reverse_ne_nil_iff.2 (hwritten.nonempty hne)

/-- A clean path is a fixed point. -/
theorem normalizeChars_of_isClean (h : IsClean cs) : normalizeChars cs = some cs := by
  obtain ⟨after, hfold⟩ := Cleaner.foldlM_push_of_isClean h
  rw [normalizeChars, hfold, Option.map_some, List.reverse_reverse]

/-- **A path can be cleaned piece by piece.**  What stands up to a separator can be replaced by its
clean form. -/
theorem normalizeChars_append (h : normalizeChars (cs ++ ['/']) = some out) (rest : List Char) :
    normalizeChars (out ++ rest) = normalizeChars (cs ++ ['/'] ++ rest) := by
  obtain ⟨s, hfold, rfl⟩ := Option.map_eq_some_iff.1 h
  have hwritten := Cleaner.written_of_foldlM hfold
  obtain ⟨after, hagain⟩ :=
    Cleaner.foldlM_push_of_isClean (IsClean.reverse_iff.2 hwritten.clean)
  -- Both runs have the same output, and it ends with the separator.
  have hhead : s.out.head? = some '/' := hwritten.closed.1 (hwritten.last.2 (by simp))
  have hafter : after = s.afterSeparator := by
    have hrewritten := Cleaner.written_of_foldlM hagain
    rw [Bool.eq_iff_iff, hwritten.closed, hrewritten.closed, List.reverse_reverse]
  rw [normalizeChars, normalizeChars, List.foldlM_append, List.foldlM_append, hagain, hfold,
    List.reverse_reverse, hafter]

/-- What `normalize` answers, from the clean form of the characters. -/
theorem normalize_eq {path : String} {bound : Nat} (hpath : path ≠ "")
    (hfits : Text.byteLength path ≤ bound) :
    normalize path bound =
      match normalizeChars path.toList with
      | some cs => .ok (String.ofList cs)
      | none => .error (.malformedTraversal path) := by
  have hempty : ¬path.isEmpty = true := by simpa using hpath
  rw [normalize, if_neg hempty]
  exact if_neg (Nat.not_lt.2 hfits)

/-- A path that is normalized is not empty and not too long. -/
theorem fits_of_normalize {path clean : String} {bound : Nat}
    (h : normalize path bound = .ok clean) : path ≠ "" ∧ Text.byteLength path ≤ bound := by
  rw [normalize] at h
  split at h
  · cases h
  · next hempty =>
    split at h
    · cases h
    · next hfits => exact ⟨by simpa using hempty, by omega⟩

/-- **What `normalize` answers is clean,** and no longer than the path. -/
theorem isClean_of_normalize {path clean : String} {bound : Nat}
    (h : normalize path bound = .ok clean) :
    clean ≠ "" ∧ Text.byteLength clean ≤ Text.byteLength path ∧ IsClean clean.toList := by
  obtain ⟨hclean, hsublist, hne⟩ := isClean_of_normalizeChars (normalizeChars_of_normalize h)
  refine ⟨?_, Text.byteLength_le_of_sublist hsublist, hclean⟩
  simpa using hne (by simpa using (fits_of_normalize h).1)

/-- **The clean paths that are not too long are those that `normalize` does not change.** -/
theorem normalize_eq_self_iff {path : String} {bound : Nat} :
    normalize path bound = .ok path ↔
      path ≠ "" ∧ Text.byteLength path ≤ bound ∧ IsClean path.toList := by
  constructor
  · intro h
    obtain ⟨hpath, -, hclean⟩ := isClean_of_normalize h
    exact ⟨hpath, (fits_of_normalize h).2, hclean⟩
  · rintro ⟨hpath, hfits, hclean⟩
    rw [normalize_eq hpath hfits, normalizeChars_of_isClean hclean]
    simp

/-- **A path is cleaned once, and piece by piece.**  The answers of `normalize` are the paths that
it does not change, and these are the paths without `//`, `/./` and `/../`, other than the empty
one, that are not too long. No answer is longer than its path. What stands in front of a separator
can be cleaned first: the whole path has the same clean form then, or climbs out of its first
segment as it did. -/
theorem normalize_retraction (bound : Nat) :
    (∀ clean, (∃ path, normalize path bound = .ok clean) ↔ normalize clean bound = .ok clean) ∧
      (∀ path, normalize path bound = .ok path ↔
        path ≠ "" ∧ Text.byteLength path ≤ bound ∧ IsClean path.toList) ∧
      (∀ path clean, normalize path bound = .ok clean →
        Text.byteLength clean ≤ Text.byteLength path ∧ normalize clean bound = .ok clean) ∧
      ∀ dir clean rest, normalize (dir ++ "/") bound = .ok clean →
        Text.byteLength (dir ++ "/" ++ rest) ≤ bound →
        (∃ result, normalize (clean ++ rest) bound = .ok result ∧
          normalize (dir ++ "/" ++ rest) bound = .ok result) ∨
        normalize (clean ++ rest) bound = .error (.malformedTraversal (clean ++ rest)) ∧
          normalize (dir ++ "/" ++ rest) bound =
            .error (.malformedTraversal (dir ++ "/" ++ rest)) := by
  have hagain : ∀ path clean, normalize path bound = .ok clean →
      normalize clean bound = .ok clean := by
    intro path clean h
    obtain ⟨hne, hlength, hclean⟩ := isClean_of_normalize h
    exact normalize_eq_self_iff.2 ⟨hne, hlength.trans (fits_of_normalize h).2, hclean⟩
  refine ⟨?_, fun path => normalize_eq_self_iff, ?_, ?_⟩
  · exact fun clean => ⟨fun ⟨path, h⟩ => hagain path clean h, fun h => ⟨clean, h⟩⟩
  · exact fun path clean h => ⟨(isClean_of_normalize h).2.1, hagain path clean h⟩
  · intro dir clean rest h hfits
    obtain ⟨hclean, hlength, -⟩ := isClean_of_normalize h
    have hshorter : Text.byteLength (clean ++ rest) ≤ bound := by
      simp only [Text.byteLength, String.utf8ByteSize_append] at hlength hfits ⊢
      omega
    have hsame := normalizeChars_append
      (by simpa using normalizeChars_of_normalize h) rest.toList
    have hparts : (clean ++ rest).toList = clean.toList ++ rest.toList ∧
        (dir ++ "/" ++ rest).toList = dir.toList ++ ['/'] ++ rest.toList := by
      simp
    rw [normalize_eq (by simp [hclean]) hshorter, normalize_eq (by simp) hfits, hparts.1, hparts.2,
      hsame]
    cases normalizeChars (dir.toList ++ ['/'] ++ rest.toList) with
    | some cs => exact .inl ⟨_, rfl, rfl⟩
    | none => exact .inr ⟨rfl, rfl⟩

/-- A directory that is cleaned first leads to the same path, and so does one that is cleaned
again; a path that climbs too far climbs too far from the clean directory as well. -/
theorem normalize_retraction_lfs :
    normalize ("/lfs//a/./../b" ++ "/") 24 = .ok "/lfs/b/" ∧
      normalize "/lfs/b/" 24 = .ok "/lfs/b/" ∧
      normalize ("/lfs//a/./../b" ++ "/" ++ "../ü/.") 24 = .ok "/lfs/ü/." ∧
      normalize ("/lfs//a/./../b" ++ "/" ++ "../../") 24 =
        .error (.malformedTraversal "/lfs//a/./../b/../../") := by
  obtain ⟨-, -, hagain, happend⟩ := normalize_retraction 24
  have hdir : normalize ("/lfs//a/./../b" ++ "/") 24 = .ok "/lfs/b/" := by decide
  have hin : normalize ("/lfs/b/" ++ "../ü/.") 24 = .ok "/lfs/ü/." := by decide
  have hout : normalize ("/lfs/b/" ++ "../../") 24 =
      .error (.malformedTraversal "/lfs/b/../../") := by decide
  refine ⟨hdir, (hagain _ _ hdir).2, ?_, ?_⟩
  · rcases happend _ _ "../ü/." hdir (by decide) with ⟨result, hshort, hlong⟩ | ⟨hshort, -⟩
    · rw [hin] at hshort
      cases hshort
      exact hlong
    · rw [hin] at hshort
      cases hshort
  · rcases happend _ _ "../../" hdir (by decide) with ⟨result, hshort, -⟩ | ⟨-, hlong⟩
    · rw [hout] at hshort
      cases hshort
    · exact hlong

end Path
end FlashVolume

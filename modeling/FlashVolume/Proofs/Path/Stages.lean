import FlashVolume.Path.Stages
import FlashVolume.Proofs.Path.Parent
import Mathlib.Data.List.Chain
import Mathlib.Data.List.TakeWhile
/-!
# The stages of a path, one above the other

Section 4.6 of the specification: the walk of `mkdir_recursive`.

The stages of a path are its beginnings that end at the boundary of a segment (`mem_stages_iff`).
They come shortest first, and each is the parent of the one behind it, so a walk over the stages of
a path visits every directory on the way to it, from the outmost one inwards.

A clean path that starts with a separator keeps it, and consists of more than separators unless it
is the root (`normalize_absolute`): what is left of it without the separators at its end is a path
with at least one stage.
-/

namespace FlashVolume
namespace Path

/-- The text is a beginning of the path that ends at the boundary of a segment. -/
def IsStage (stage path : String) : Prop :=
  stage ≠ "" ∧ (stage = path ∨ (stage ++ "/").toList <+: path.toList)

instance (stage path : String) : Decidable (IsStage stage path) :=
  inferInstanceAs (Decidable (_ ∧ (_ ∨ _)))

/-- A path is its own last stage. -/
theorem IsStage.self {path : String} (h : path ≠ "") : IsStage path path :=
  ⟨h, .inl rfl⟩

/-- What has a stage is not empty. -/
theorem IsStage.ne_empty {stage path : String} (h : IsStage stage path) : path ≠ "" := by
  rcases h.2 with rfl | ⟨rest, hrest⟩
  · exact h.1
  · rintro rfl
    simp at hrest

/-- Each path is the parent of the one behind it. -/
def IsDescent (paths : List String) : Prop :=
  paths.IsChain fun above path => parent path = above

/-- In a descent the first path is the parent of the one that comes next. -/
theorem IsDescent.parent_head {path : String} {paths : List String}
    (h : IsDescent (path :: paths)) : ∀ next ∈ paths.head?, parent next = path := by
  intro next hnext
  cases paths with
  | nil => cases hnext
  | cons first rest =>
    cases hnext
    exact h.rel

/-! ### Characters -/

/-- A stage is the whole text, or it ends before a separator. -/
theorem mem_stagesFrom_iff {before cs stage : List Char} :
    stage ∈ stagesFrom before cs ↔ stage = before.reverse ++ cs ∨
      ∃ mid after, cs = mid ++ '/' :: after ∧ before.reverse ++ mid ≠ [] ∧
        stage = before.reverse ++ mid := by
  induction cs generalizing before with
  | nil => simp [stagesFrom]
  | cons c cs ih =>
    -- What is a stage behind `c` is one from `before` on that does not end there.
    have hrest : stage ∈ stagesFrom (c :: before) cs ↔ stage = before.reverse ++ c :: cs ∨
        ∃ mid after, cs = mid ++ '/' :: after ∧ stage = before.reverse ++ c :: mid := by
      rw [ih]
      simp
    rw [stagesFrom]
    split
    · next hc =>
      obtain ⟨rfl, hbefore⟩ := hc
      rw [List.mem_cons, hrest]
      constructor
      · rintro (rfl | rfl | ⟨mid, after, rfl, rfl⟩)
        · exact .inr ⟨[], cs, rfl, by simpa using hbefore, by simp⟩
        · exact .inl rfl
        · exact .inr ⟨'/' :: mid, after, rfl, by simp, rfl⟩
      · rintro (rfl | ⟨mid, after, hsplit, -, rfl⟩)
        · exact .inr (.inl rfl)
        · cases mid with
          | nil => exact .inl (by simp)
          | cons d mid =>
            obtain ⟨rfl, rfl⟩ := List.cons.inj hsplit
            exact .inr (.inr ⟨mid, after, rfl, rfl⟩)
    · next hc =>
      rw [hrest]
      constructor
      · rintro (rfl | ⟨mid, after, rfl, rfl⟩)
        · exact .inl rfl
        · exact .inr ⟨c :: mid, after, rfl, by simp, rfl⟩
      · rintro (rfl | ⟨mid, after, hsplit, hne, rfl⟩)
        · exact .inl rfl
        · cases mid with
          | nil =>
            obtain ⟨rfl, rfl⟩ := List.cons.inj hsplit
            exact absurd ⟨rfl, by simpa using hne⟩ hc
          | cons d mid =>
            obtain ⟨rfl, rfl⟩ := List.cons.inj hsplit
            exact .inr ⟨mid, after, rfl, rfl⟩

/-- The first stage behind some characters ends before the next separator. -/
theorem exists_head_stagesFrom {before : List Char} (h : before ≠ []) (cs : List Char) :
    ∃ mid rest, '/' ∉ mid ∧ stagesFrom before cs = (before.reverse ++ mid) :: rest := by
  induction cs generalizing before with
  | nil => exact ⟨[], [], List.not_mem_nil, by simp [stagesFrom]⟩
  | cons c cs ih =>
    rw [stagesFrom]
    split
    · exact ⟨[], _, List.not_mem_nil, by rw [List.append_nil]⟩
    · next hc =>
      have hsep : '/' ≠ c := by
        rintro rfl
        exact hc ⟨rfl, h⟩
      obtain ⟨mid, rest, hmid, heq⟩ := ih (List.cons_ne_nil c before)
      exact ⟨c :: mid, rest, by simp [hsep, hmid], by simp [heq]⟩

/-- The last stage is the whole text. -/
theorem exists_stagesFrom_concat (before cs : List Char) :
    ∃ above, stagesFrom before cs = above ++ [before.reverse ++ cs] := by
  induction cs generalizing before with
  | nil => exact ⟨[], by simp [stagesFrom]⟩
  | cons c cs ih =>
    obtain ⟨above, heq⟩ := ih (c :: before)
    rw [List.reverse_cons, List.append_assoc, List.singleton_append] at heq
    rw [stagesFrom]
    split
    · exact ⟨before.reverse :: above, by rw [heq, List.cons_append]⟩
    · exact ⟨above, heq⟩

/-- Each stage is the parent of the next. -/
theorem isChain_stagesFrom (before cs : List Char) :
    (stagesFrom before cs).IsChain fun above path => parentChars path = above := by
  induction cs generalizing before with
  | nil => exact .singleton _
  | cons c cs ih =>
    rw [stagesFrom]
    split
    · next hc =>
      obtain ⟨rfl, hbefore⟩ := hc
      have hchain := ih ('/' :: before)
      obtain ⟨mid, rest, hmid, heq⟩ := exists_head_stagesFrom (List.cons_ne_nil '/' before) cs
      rw [heq] at hchain ⊢
      refine .cons_cons ?_ hchain
      rw [List.reverse_cons, List.append_assoc, List.singleton_append, parentChars_append hmid,
        if_neg (by simpa using hbefore)]
    · exact ih (c :: before)

/-- Stages become longer. -/
theorem pairwise_stagesFrom (before cs : List Char) :
    (stagesFrom before cs).Pairwise fun p q => p.length < q.length := by
  induction cs generalizing before with
  | nil => exact List.pairwise_singleton _ _
  | cons c cs ih =>
    rw [stagesFrom]
    split
    · refine List.pairwise_cons.2 ⟨?_, ih _⟩
      intro stage hstage
      rcases mem_stagesFrom_iff.1 hstage with rfl | ⟨mid, after, -, -, rfl⟩
      · simp
      · simp
    · exact ih _

/-! ### Paths -/

/-- **The stages of a path are its beginnings that end at the boundary of a segment.** -/
theorem mem_stages_iff {stage path : String} (hpath : path ≠ "") :
    stage ∈ stages path ↔ IsStage stage path := by
  have hnil : path.toList ≠ [] := by simpa using hpath
  rw [stages, List.mem_map]
  constructor
  · rintro ⟨chars, hchars, rfl⟩
    rcases mem_stagesFrom_iff.1 hchars with rfl | ⟨mid, after, hsplit, hne, rfl⟩
    · rw [List.reverse_nil, List.nil_append, String.ofList_toList]
      exact ⟨hpath, .inl rfl⟩
    · refine ⟨?_, .inr ⟨after, by simp [hsplit]⟩⟩
      intro hempty
      exact hne (String.ofList_eq_empty_iff.1 hempty)
  · rintro ⟨hne, rfl | ⟨after, hsplit⟩⟩
    · exact ⟨_, mem_stagesFrom_iff.2 (.inl rfl), by simp⟩
    · refine ⟨stage.toList, mem_stagesFrom_iff.2 (.inr ⟨stage.toList, after, ?_, ?_, rfl⟩),
        String.ofList_toList⟩
      · simpa using hsplit.symm
      · simpa using hne

/-- The last stage is the path itself. -/
theorem exists_stages_concat (path : String) : ∃ above, stages path = above ++ [path] := by
  obtain ⟨above, heq⟩ := exists_stagesFrom_concat [] path.toList
  exact ⟨above.map String.ofList, by simp [stages, heq]⟩

/-- **Each stage is the parent of the next.** -/
theorem isDescent_stages (path : String) : IsDescent (stages path) := by
  rw [IsDescent, stages, List.isChain_map]
  refine (isChain_stagesFrom [] path.toList).imp ?_
  intro above below h
  rw [parent, String.toList_ofList, h]

/-- Stages become longer. -/
theorem pairwise_stages (path : String) :
    (stages path).Pairwise fun p q => p.length < q.length := by
  rw [stages, List.pairwise_map]
  refine (pairwise_stagesFrom [] path.toList).imp ?_
  intro p q h
  rwa [String.length_ofList, String.length_ofList]

/-- No stage comes twice. -/
theorem nodup_stages (path : String) : (stages path).Nodup := by
  refine (pairwise_stages path).imp ?_
  rintro p q h rfl
  exact Nat.lt_irrefl _ h

/-- The first stage of an absolute path is an entry of the root. -/
theorem parent_head_stages {path : String} (h : path.toList.head? = some '/') :
    ∀ stage ∈ (stages path).head?, parent stage = "/" := by
  obtain ⟨cs, hcs⟩ : ∃ cs, path.toList = '/' :: cs := by
    cases hchars : path.toList with
    | nil => simp [hchars] at h
    | cons c cs => exact ⟨cs, by simpa [hchars] using h⟩
  obtain ⟨mid, rest, hmid, heq⟩ := exists_head_stagesFrom (List.cons_ne_nil '/' []) cs
  have hstages : stages path = String.ofList ('/' :: mid) :: rest.map String.ofList := by
    rw [stages, hcs, stagesFrom, if_neg (by simp), heq]
    rfl
  rw [hstages]
  rintro stage ⟨⟩
  have hparent : parentChars ([] ++ '/' :: mid) = ['/'] := parentChars_append hmid
  rw [parent, String.toList_ofList, ← List.nil_append ('/' :: mid), hparent]

/-! ### Separators at the end -/

/-- What is cut from the end of a path are separators. -/
theorem exists_trimSeparators (path : String) :
    ∃ n, path.toList = (trimSeparators path).toList ++ List.replicate n '/' := by
  have hcut : ∀ c ∈ path.toList.reverse.takeWhile (· = '/'), c = '/' := by
    intro c hc
    simpa using List.mem_takeWhile_imp hc
  refine ⟨(path.toList.reverse.takeWhile (· = '/')).length, ?_⟩
  rw [trimSeparators, String.toList_ofList, ← List.reverse_inj, List.reverse_append,
    List.reverse_reverse, List.reverse_replicate, ← List.eq_replicate_of_mem hcut,
    List.takeWhile_append_dropWhile]

/-- No separator is left at the end. -/
theorem getLast?_trimSeparators (path : String) :
    (trimSeparators path).toList.getLast? ≠ some '/' := by
  intro h
  rw [trimSeparators, String.toList_ofList, List.getLast?_reverse] at h
  have hfirst := List.head?_dropWhile_not (· = '/') path.toList.reverse
  rw [h] at hfirst
  simp at hfirst

/-- A path without a separator at the end is left as it is. -/
theorem trimSeparators_eq_self {path : String} (h : path.toList.getLast? ≠ some '/') :
    trimSeparators path = path := by
  obtain ⟨n, hsplit⟩ := exists_trimSeparators path
  cases n with
  | zero => simpa [String.toList_inj] using hsplit.symm
  | succ n =>
    refine absurd ?_ h
    rw [hsplit, List.replicate_succ', ← List.append_assoc, List.getLast?_concat]

/-- A path of more than separators is not cut away, and starts as before. -/
theorem trimSeparators_of_mem {path : String} {c : Char} (hmem : c ∈ path.toList) (hc : c ≠ '/') :
    trimSeparators path ≠ "" ∧ (trimSeparators path).toList.head? = path.toList.head? := by
  obtain ⟨n, hsplit⟩ := exists_trimSeparators path
  have hkept : c ∈ (trimSeparators path).toList := by
    rw [hsplit, List.mem_append] at hmem
    refine hmem.resolve_right fun hcut => hc ?_
    exact (List.mem_replicate.1 hcut).2
  obtain ⟨d, rest, hcons⟩ := List.exists_cons_of_ne_nil (List.ne_nil_of_mem hkept)
  refine ⟨?_, ?_⟩
  · intro hempty
    rw [hempty] at hcons
    cases hcons
  · rw [hsplit, hcons]
    rfl

/-! ### Clean paths -/

/-- Segments keep the stack in order. -/
theorem Stacked.foldlM_stackSegment {root : List Char} {stack stack' : List (List Char)}
    (h : Stacked root stack) (hout : trail root stack ≠ []) {segments : List (List Char)}
    (hsep : ∀ segment ∈ segments, '/' ∉ segment)
    (hs : segments.foldlM Path.stackSegment stack = some stack') : Stacked root stack' := by
  induction segments generalizing stack with
  | nil =>
    cases hs
    exact h
  | cons segment segments ih =>
    obtain ⟨hsegment, hsep⟩ := List.forall_mem_cons.1 hsep
    rw [List.foldlM_cons] at hs
    obtain ⟨mid, hmid, hrest⟩ := Option.bind_eq_some_iff.1 hs
    obtain ⟨hstack, hout'⟩ := h.stackSegment hout hsegment hmid
    exact ih hstack hout' hsep hrest

/-- The clean form of a path with a separator in front has one as well, and it is the root or has
more than separators. -/
theorem normalizeChars_rooted {cs out : List Char} (hroot : cs.head? = some '/')
    (h : normalizeChars cs = some out) :
    out.head? = some '/' ∧ (out = ['/'] ∨ ∃ c ∈ out, c ≠ '/') := by
  obtain ⟨segments, last, hsep, hlast, rfl⟩ := exists_segments cs
  obtain ⟨rest, rfl⟩ : ∃ rest, segments = [] :: rest := by
    cases segments with
    | nil => exact absurd (List.mem_of_mem_head? hroot) hlast
    | cons segment rest =>
      cases segment with
      | nil => exact ⟨rest, rfl⟩
      | cons c segment =>
        obtain rfl : c = '/' := by simpa using hroot
        exact absurd List.mem_cons_self (hsep _ List.mem_cons_self)
  rw [normalizeChars_eq_cleanSegments, cleanSegments_segments hsep hlast] at h
  obtain ⟨stack, hstack, rfl⟩ := Option.map_eq_some_iff.1 h
  have hstacked : Stacked (rootMark true) stack :=
    Stacked.nil.foldlM_stackSegment (by simp [rootMark]) hsep hstack
  have hmark : rootMark (([] :: rest : List (List Char)).head? = some []) = rootMark true := rfl
  rw [hmark, trail_reverse]
  refine ⟨rfl, ?_⟩
  -- The last segment on the stack has a character, or else the text behind it has.
  cases hstacked with
  | nil =>
    cases last with
    | nil => exact .inl rfl
    | cons c last => exact .inr ⟨c, by simp, fun hc => hlast (by simp [hc])⟩
  | cons hstack hne hsegment =>
    obtain ⟨c, segment, rfl⟩ := List.exists_cons_of_ne_nil hne
    exact .inr ⟨c, by simp, fun hc => hsegment (by simp [hc])⟩

/-- What has been normalized is the clean form of its characters. -/
theorem normalizeChars_of_normalize {path clean : String} {bound : Nat}
    (h : normalize path bound = .ok clean) : normalizeChars path.toList = some clean.toList := by
  rw [normalize] at h
  split at h
  · cases h
  · split at h
    · cases h
    · split at h
      · next out hout =>
        cases h
        rw [hout, String.toList_ofList]
      · cases h

/-- **A clean path that is absolute is the root or has a stage,** and the first of its stages is an
entry of the root. -/
theorem normalize_absolute {path clean : String} {bound : Nat}
    (habsolute : path.toList.head? = some '/') (h : normalize path bound = .ok clean) :
    clean = "/" ∨
      trimSeparators clean ≠ "" ∧ (trimSeparators clean).toList.head? = some '/' := by
  obtain ⟨hhead, hroot | ⟨c, hmem, hc⟩⟩ :=
    normalizeChars_rooted habsolute (normalizeChars_of_normalize h)
  · exact .inl (String.toList_inj.1 hroot)
  · obtain ⟨hne, hkept⟩ := trimSeparators_of_mem hmem hc
    exact .inr ⟨hne, hkept.trans hhead⟩

end Path
end FlashVolume

import FlashVolume.Proofs.Storage.Presentation
import FlashVolume.Proofs.Storage.Running
import Mathlib.Data.List.Nodup
/-!
# Entries that are found and removed

What enumerating a directory, finding entries of it and removing files of it answer on a volume that
shows a map. The order of the entries is that of the volume; everything else is in the map, so two
volumes that show the same map find the same entries, and have the same map after the removal of
what they found (`Directory.run_find`, `Directory.run_deleteEach`).
-/

universe u

namespace FlashVolume

/-- The map without some paths. -/
def PathMap.without (m : PathMap) (paths : List String) : PathMap :=
  fun p => if p ∈ paths then none else m p

/-- Paths are taken from a map one by one. -/
theorem PathMap.without_cons (m : PathMap) (path : String) (paths : List String) :
    m.without (path :: paths) = (m.update path none).without paths := by
  funext p
  by_cases hpath : p = path <;> by_cases hpaths : p ∈ paths <;>
    simp [without, update, hpath, hpaths]

/-- Which paths are taken counts, not their order. -/
theorem PathMap.without_congr (m : PathMap) {paths paths' : List String}
    (h : ∀ p, p ∈ paths ↔ p ∈ paths') : m.without paths = m.without paths' := by
  funext p
  rw [without, without]
  exact if_congr (h p) rfl rfl

/-! ### Matches in a list of entries -/

namespace Directory

/-- What is found where some entries match: all of them if there is room for them, and none if
there is not. -/
def held [Allocator] (found : List Entry) : List Entry :=
  if Allocator.grantsEntries found.length then found else []

/-- The allocator grants the room for all that is found or for nothing. -/
theorem held_eq_or [Allocator] (found : List Entry) : held found = found ∨ held found = [] := by
  rw [held]
  split
  · exact .inl rfl
  · exact .inr rfl

/-- Nothing is held where nothing is found or no room is granted. -/
theorem held_eq_nil [Allocator] {found : List Entry}
    (h : found = [] ∨ Allocator.grantsEntries found.length = false) : held found = [] := by
  rcases h with rfl | h
  · exact (held_eq_or []).elim id id
  · rw [held, if_neg (by simp [h])]

/-- Whether there is room does not depend on the order. -/
theorem held_perm [Allocator] {found found' : List Entry} (h : found.Perm found') :
    (held found).Perm (held found') := by
  rw [held, held, h.length_eq]
  split
  · exact h
  · exact .nil

/-- What is held was found. -/
theorem held_sublist [Allocator] (found : List Entry) : (held found).Sublist found := by
  rcases held_eq_or found with h | h <;> rw [h]
  exact List.nil_sublist found

/-- The entry is that of a file in the directory. -/
def IsFileOf (site : Site) (m : PathMap) (names : List String) (entry : Entry) : Prop :=
  ∃ data, site.Admits (names ++ [entry.name]) ∧
    m (site.path (names ++ [entry.name])) = some (.file data)

end Directory

namespace Site.Lists

open Directory

variable {site : Site} {m : PathMap} {names : List String} {entries : List Entry}

/-- No two entries of a directory have the same name. -/
theorem nodup_matches (h : site.Lists m names entries) (name : String) (kind : EntryKind) :
    ((entries.filter (isMatch name kind)).map Entry.name).Nodup := by
  refine List.Nodup.map_on ?_ (h.nodup.filter _)
  intro entry hentry entry' hentry' hname
  obtain ⟨n, node, -, hnode, rfl⟩ := (h.mem_iff entry).1 (List.mem_filter.1 hentry).1
  obtain ⟨n', node', -, hnode', rfl⟩ := (h.mem_iff entry').1 (List.mem_filter.1 hentry').1
  rw [Node.toEntry_name, Node.toEntry_name] at hname
  subst hname
  rw [hnode] at hnode'
  rw [Option.some.inj hnode']

/-- A match that is to be a file is one. -/
theorem isFileOf_matches (h : site.Lists m names entries) (name : String) :
    ∀ entry ∈ entries.filter (isMatch name .file), IsFileOf site m names entry := by
  intro entry hentry
  obtain ⟨hmem, hmatch⟩ := List.mem_filter.1 hentry
  obtain ⟨n, node, hadmits, hnode, rfl⟩ := (h.mem_iff entry).1 hmem
  cases node with
  | directory => simp [isMatch, Node.toEntry, Entry.ofDirectory] at hmatch
  | file data => exact ⟨data, hadmits, hnode⟩

end Site.Lists

namespace Directory

/-! ### Visitors -/

/-- Counting never stops early, so it counts every match. -/
theorem foldUntil_countMatches (name : String) (kind : EntryKind) (count : Nat)
    (entries : List Entry) : foldUntil (countMatches name kind) count entries =
      count + (entries.filter (isMatch name kind)).length := by
  induction entries generalizing count with
  | nil => rfl
  | cons entry rest ih =>
    simp only [foldUntil, countMatches]
    rw [ih]
    by_cases hmatch : isMatch name kind entry
    · rw [if_pos hmatch, List.filter_cons_of_pos hmatch, List.length_cons]
      omega
    · rw [if_neg hmatch, List.filter_cons_of_neg hmatch]

/-- As many matches are collected as there are. -/
theorem foldUntil_collectMatches {name : String} {kind : EntryKind} {count : Nat}
    {found entries : List Entry}
    (hcount : found.length + (entries.filter (isMatch name kind)).length = count) :
    foldUntil (collectMatches name kind count) found entries =
      found ++ entries.filter (isMatch name kind) := by
  induction entries generalizing found with
  | nil => simp [foldUntil]
  | cons entry rest ih =>
    -- What is found with the entry, and what is still to be found behind it.
    obtain ⟨found', hfound', htotal⟩ : ∃ found',
        (if isMatch name kind entry then found ++ [entry] else found) = found' ∧
          found ++ (entry :: rest).filter (isMatch name kind) =
            found' ++ rest.filter (isMatch name kind) := by
      by_cases hmatch : isMatch name kind entry <;> simp [hmatch]
    have hcount' : found'.length + (rest.filter (isMatch name kind)).length = count := by
      rw [← hcount, ← List.length_append, ← List.length_append, htotal]
    rw [htotal]
    by_cases hmore : found'.length < count
    · rw [← ih hcount']
      simp only [foldUntil, collectMatches, hfound', hmore, if_true]
    · have hnone : rest.filter (isMatch name kind) = [] := List.length_eq_zero_iff.1 (by omega)
      rw [hnone, List.append_nil]
      simp only [foldUntil, collectMatches, hfound', hmore, if_false]

/-! ### Enumerations -/

section Enumerations

variable {site : Site} {σ : Type u} {B : Backend σ} (P : Presentation site B) {s : σ} {m : PathMap}
  {names : List String}

/-- A directory is walked through all it lists. -/
theorem run_enumerate_directory (hs : P.Shows s m) (hnames : site.Admits names)
    (hnode : m (site.path names) = some .directory) {γ : Type} (visit : γ → Entry → ForInStep γ)
    (start : γ) : ∃ entries s', site.Lists m names entries ∧
      (enumerate (site.path names) visit start).run B s =
        ((foldUntil visit start entries, none), s') ∧ P.Shows s' m := by
  obtain ⟨dir, s₁, entries, hopen, hlists, hdelivers⟩ := P.opendir hs hnames hnode
  obtain ⟨s', hrun, hs'⟩ := Backend.run_enumerate hopen hdelivers
    (fun s hs => P.closedir dir hs) visit start
  exact ⟨entries, s', hlists, hrun, hs'⟩

/-- A walk through anything else ends before its first entry. -/
theorem run_enumerate_other (hs : P.Shows s m) (hnames : site.Admits names)
    (hnode : m (site.path names) ≠ some .directory) {γ : Type} (visit : γ → Entry → ForInStep γ)
    (start : γ) : ∃ e s', (enumerate (site.path names) visit start).run B s =
      ((start, some e), s') ∧ P.Shows s' m := by
  obtain ⟨e, s', hopen, hs'⟩ := P.opendir_other hs hnames hnode
  exact ⟨e, s', by simp only [enumerate, Program.run, hopen], hs'⟩

/-- What is no directory has no entries. -/
theorem lists_nil (hm : site.Fits m) (hnode : m (site.path names) ≠ some .directory) :
    site.Lists m names [] := by
  refine ⟨List.nodup_nil, fun entry => iff_of_false List.not_mem_nil ?_⟩
  rintro ⟨name, node, hadmits, hpresent, -⟩
  refine hnode (hm.directory_of_append hadmits (List.cons_ne_nil _ _) ?_)
  rw [hpresent]
  exact Option.some_ne_none _

/-- Finding is counting, and collecting if there is something to collect and room for it. -/
theorem find_eq [Allocator] {dir : String} (hdir : dir ≠ "") (name : String) (kind : EntryKind) :
    find dir name kind = (enumerate dir (countMatches name kind) 0).bind fun counted =>
      if counted.1 = 0 ∨ !Allocator.grantsEntries counted.1 then .ret []
      else (enumerate dir (collectMatches name kind counted.1) []).bind fun found =>
        .ret found.1 := by
  rw [find, if_neg (by simpa using hdir)]
  rfl

/-- **What is found are the entries that match,** each of them once, if there is room for them. -/
theorem run_find [Allocator] (hs : P.Shows s m) (hnames : site.Admits names) (name : String)
    (kind : EntryKind) : ∃ entries s', site.Lists m names entries ∧
      (find (site.path names) name kind).run B s =
        (held (entries.filter (isMatch name kind)), s') ∧ P.Shows s' m := by
  rw [find_eq (site.path_ne_empty names), Program.run_bind]
  by_cases hnode : m (site.path names) = some .directory
  · obtain ⟨entries, s₁, hlists, hcount, hs₁⟩ :=
      run_enumerate_directory P hs hnames hnode (countMatches name kind) 0
    rw [hcount, foldUntil_countMatches, Nat.zero_add]
    by_cases hroom : (entries.filter (isMatch name kind)).length ≠ 0 ∧
        Allocator.grantsEntries (entries.filter (isMatch name kind)).length = true
    · -- The second enumeration may have another order, but it has as many matches.
      obtain ⟨entries', s₂, hlists', hcollect, hs₂⟩ := run_enumerate_directory P hs₁ hnames hnode
        (collectMatches name kind (entries.filter (isMatch name kind)).length) []
      have hperm := (hlists'.perm hlists).filter (isMatch name kind)
      rw [foldUntil_collectMatches (by simpa using hperm.length_eq), List.nil_append] at hcollect
      refine ⟨entries', s₂, hlists', ?_, hs₂⟩
      rw [if_neg (by simpa using hroom), Program.run_bind, hcollect, held, hperm.length_eq,
        if_pos hroom.2]
      rfl
    · refine ⟨entries, s₁, hlists, ?_, hs₁⟩
      rw [held_eq_nil (by simpa [or_iff_not_imp_left] using hroom),
        if_pos (by simpa [or_iff_not_imp_left] using hroom)]
      rfl
  · obtain ⟨e, s₁, hcount, hs₁⟩ :=
      run_enumerate_other P hs hnames hnode (countMatches name kind) 0
    refine ⟨[], s₁, lists_nil (P.fits hs) hnode, ?_, hs₁⟩
    rw [hcount, List.filter_nil, held_eq_nil (.inl rfl), if_pos (.inl rfl)]
    rfl

/-- What the removal of entries answers: how many are gone in addition to those that were gone
before, or that there is no longest path; then nothing has been removed. -/
def Reports (config : Config) (deleted : Nat) (removed : List Entry)
    (answer : Except Error Nat) : Prop :=
  answer = .ok (deleted + removed.length) ∨
    answer = .error .overflow ∧ removed = [] ∧ config.maxAbsPathLength = .error .overflow

/-- Entries of which the first is gone are reported by what is reported of the others. -/
theorem Reports.cons {config : Config} {deleted bound : Nat} {removed : List Entry}
    {answer : Except Error Nat} (hbound : config.maxAbsPathLength = .ok bound)
    (h : Reports config (deleted + 1) removed answer) (entry : Entry) :
    Reports config deleted (entry :: removed) answer := by
  rcases h with rfl | ⟨-, -, hoverflow⟩
  · rw [Nat.add_right_comm, Nat.add_assoc]
    exact .inl rfl
  · cases hbound.symm.trans hoverflow

/-- The answer says how many are gone. -/
theorem Reports.length_eq {config : Config} {deleted : Nat} {removed removed' : List Entry}
    {answer : Except Error Nat} (h : Reports config deleted removed answer)
    (h' : Reports config deleted removed' answer) : removed.length = removed'.length := by
  rcases h with rfl | ⟨rfl, rfl, -⟩
  · rcases h' with h' | ⟨h', -, -⟩
    · exact Nat.add_left_cancel (Except.ok.inj h')
    · cases h'
  · rcases h' with h' | ⟨-, rfl, -⟩
    · cases h'
    · rfl

/-- Where there is a longest path, the number is answered. -/
theorem Reports.eq_ok {config : Config} {deleted : Nat} {removed : List Entry}
    {answer : Except Error Nat} (h : Reports config deleted removed answer)
    (hsum : config.sizeSum ≤ Word.maxUnsigned64) : answer = .ok (deleted + removed.length) := by
  refine h.resolve_right fun hover => ?_
  exact absurd (Config.maxAbsPathLength_eq_error_iff.1 hover.2.2).1 (Nat.not_lt.2 hsum)

/-- The removal of entries fails only before anything has been removed. -/
theorem deleteEach_failed {dir : String} {config : Config} {entries : List Entry} {deleted : Nat}
    {e : Error} {s s' : σ}
    (h : Operation.runOn B (deleteEach dir config entries deleted) s = (.error e, s')) :
    s' = s ∧ config.maxAbsPathLength = .error .overflow := by
  -- By induction on the entries; behind one that resolves none fails.
  induction entries generalizing s deleted with
  | nil => cases h
  | cons entry rest ih =>
    cases hresolve : Path.resolve dir entry.name config with
    | error e' =>
      rw [deleteEach, hresolve] at h
      cases e' with
      | overflow =>
        cases h
        exact ⟨rfl, Path.maxAbsPathLength_of_resolve hresolve⟩
      | _ => cases h
    | ok path =>
      obtain ⟨bound, hbound⟩ := Path.exists_bound_of_resolve hresolve
      rw [deleteEach, hresolve] at h
      dsimp only at h
      rw [Operation.runOn_bind, Operation.runOn_attempt] at h
      dsimp only at h
      split at h
      · cases h
      · cases hbound.symm.trans (ih h).2

/-- **Files that are found are removed,** all of them. -/
theorem run_deleteEach (hs : P.Shows s m) {entries : List Entry}
    (hdistinct : (entries.map Entry.name).Nodup)
    (hfiles : ∀ entry ∈ entries, IsFileOf site m names entry) (deleted : Nat) :
    ∃ s', Operation.runOn B (deleteEach (site.path names) site.config entries deleted) s =
        (.ok (deleted + entries.length), s') ∧
      P.Shows s' (m.without (entries.map fun entry => site.path (names ++ [entry.name]))) := by
  -- By induction on the entries; a removal leaves the other files in place.
  induction entries generalizing s m deleted with
  | nil =>
    refine ⟨s, rfl, ?_⟩
    have hkept : m.without [] = m := by
      funext p
      exact if_neg List.not_mem_nil
    rw [List.map_nil, hkept]
    exact hs
  | cons entry rest ih =>
    obtain ⟨⟨data, hadmits, hfile⟩, hrest⟩ := List.forall_mem_cons.1 hfiles
    obtain ⟨hnew, hdistinct⟩ := List.nodup_cons.1 hdistinct
    obtain ⟨s₁, hunlink, hs₁⟩ := P.unlink_free hs hadmits hfile nofun
    have hrest' : ∀ other ∈ rest, IsFileOf site
        (m.update (site.path (names ++ [entry.name])) none) names other := by
      intro other hother
      obtain ⟨data', hadmits', hfile'⟩ := hrest other hother
      have hname : other.name ≠ entry.name := by
        intro heq
        exact hnew (heq ▸ List.mem_map_of_mem hother)
      refine ⟨data', hadmits', ?_⟩
      rw [Site.update_path hadmits hadmits', if_neg (by simpa using hname)]
      exact hfile'
    obtain ⟨s', hrun, hs'⟩ := ih hs₁ hdistinct hrest' (deleted + 1)
    refine ⟨s', ?_, ?_⟩
    · rw [deleteEach, Site.resolve_of_admits hadmits]
      simp only [Operation.runOn_bind, Operation.runOn_attempt, hunlink, hrun, List.length_cons]
      rw [Nat.add_right_comm, Nat.add_assoc]
    · rw [List.map_cons, PathMap.without_cons]
      exact hs'

end Enumerations
end Directory
end FlashVolume

import FlashVolume.Proofs.Memory.Records
import FlashVolume.Proofs.Passes
/-!
# The only entry that matches

Section 4.4 of the specification: `exists_unique`.

`uniqueSize` answers the size of the one entry that it finds in two passes, and a pass that fails
halfway finds less than there is. What an answer means depends on how the passes ended:

| first pass | second pass | what is known |
| --- | --- | --- |
| to the end, one match | to the end, or up to a match | the match is the only one |
| to the end, more matches | to the end, one match | the match is the only one |
| failed behind one match | up to a match | it is the first match |
| any | failed behind one match | it is the first match |

So the entry is the first that matches in any case, and another one can only be there if one of the
passes failed behind a single match (`uniqueSize_first`). The volume meant is the one after the
call, as opening the directory for the second time can make an entry disappear.
-/

universe u

namespace FlashVolume

/-! ### Passes of a backend -/

/-- How the reads of an open directory end. -/
inductive Ending where
  /-- A read failed, or the directory could not be opened. -/
  | failed
  /-- The end mark was read. -/
  | ended
  /-- No more was asked for. -/
  | stopped
deriving DecidableEq, Repr

namespace Backend

variable {σ : Type u} {γ : Type} {B : Backend σ}

/-- The reads of an open directory, from one state to another: the entries that are delivered, and
how they end. -/
inductive Reads (B : Backend σ) (dir : DirHandle) : σ → List Entry → Ending → σ → Prop where
  | failed {s s' : σ} {e : StorageError} (h : B.answer (.readdir dir) s = (.error e, s')) :
      Reads B dir s [] .failed s'
  | ended {s s' : σ} {mark : Entry} (h : B.answer (.readdir dir) s = (.ok mark, s'))
      (hend : mark.isEnd = true) : Reads B dir s [] .ended s'
  | stopped (s : σ) : Reads B dir s [] .stopped s
  | read {s s₁ s' : σ} {entry : Entry} {shown : List Entry} {ending : Ending}
      (h : B.answer (.readdir dir) s = (.ok entry, s₁)) (hend : entry.isEnd = false)
      (rest : Reads B dir s₁ shown ending s') : Reads B dir s (entry :: shown) ending s'

/-- A pass over a directory, from one state to another: it cannot be opened, or it is opened, read
and closed. -/
inductive Pass (B : Backend σ) (path : String) : σ → List Entry → Ending → σ → Prop where
  | refused {s s' : σ} {e : StorageError} (h : B.answer (.opendir path) s = (.error e, s')) :
      Pass B path s [] .failed s'
  | read {s s₁ s₂ s' : σ} {dir : DirHandle} {shown : List Entry} {ending : Ending}
      (hopen : B.answer (.opendir path) s = (.ok dir, s₁)) (reads : B.Reads dir s₁ shown ending s₂)
      (hclose : (B.answer (.closedir dir) s₂).2 = s') : Pass B path s shown ending s'

/-- **A scan shows its visitor what it reads,** and stops where the visitor does. -/
theorem scan_reads (B : Backend σ) (dir : DirHandle) (visit : γ → Entry → ForInStep γ) (acc : γ)
    (s : σ) : ∃ shown stopped ending, B.Reads dir s shown ending (B.scan dir visit acc s).2 ∧
      Watches visit acc shown stopped (B.scan dir visit acc s).1.1 ∧
      (stopped = true ↔ ending = .stopped) := by
  fun_induction Backend.scan B dir visit acc s with
  | case1 acc s e s' hread => exact ⟨[], false, .failed, .failed hread, .done acc, by simp⟩
  | case2 acc s mark s' hread hend =>
    exact ⟨[], false, .ended, .ended hread hend, .done acc, by simp⟩
  | case3 acc s entry s' hread hend acc' hvisit =>
    exact ⟨[entry], true, .stopped, .read hread (by simpa using hend) (.stopped s'),
      .stopped hvisit, by simp⟩
  | case4 acc s entry s' hread hend acc' hvisit ih =>
    obtain ⟨shown, stopped, ending, hreads, hwatches, hstopped⟩ := ih
    exact ⟨entry :: shown, stopped, ending, .read hread (by simpa using hend) hreads,
      .passed hvisit hwatches, hstopped⟩

/-- **An enumeration is one pass.** -/
theorem enumerate_pass (B : Backend σ) (path : String) (visit : γ → Entry → ForInStep γ)
    (start : γ) (s : σ) :
    let result := (Directory.enumerate path visit start).run B s
    ∃ shown stopped ending, B.Pass path s shown ending result.2 ∧
      Watches visit start shown stopped result.1.1 ∧ (stopped = true ↔ ending = .stopped) := by
  intro result
  cases hopen : B.answer (.opendir path) s with
  | mk answer s₁ =>
    cases answer with
    | error e =>
      have hresult : result = ((start, some e), s₁) := by
        simp only [result, Directory.enumerate, Program.run, hopen]
      rw [hresult]
      exact ⟨[], false, .failed, .refused hopen, .done start, by simp⟩
    | ok dir =>
      have hresult : result = ((B.scan dir visit start s₁).1,
          (B.answer (.closedir dir) (B.scan dir visit start s₁).2).2) := by
        simp only [result, Directory.enumerate, Program.run, hopen]
      obtain ⟨shown, stopped, ending, hreads, hwatches, hstopped⟩ := B.scan_reads dir visit start s₁
      rw [hresult]
      exact ⟨shown, stopped, ending, .read hopen hreads rfl, hwatches, hstopped⟩

/-- **What is found in two passes,** if something is found: in the first pass there were as many
matches as the second was to find, and the second shows what is found. -/
theorem find_pass [Allocator] {dir name : String} {kind : EntryKind} {s : σ}
    {found : List Entry} {s' : σ} (hdir : dir ≠ "")
    (h : (Directory.find dir name kind).run B s = (found, s')) (hfound : found ≠ []) :
    ∃ counted ending s₁ shown ending', B.Pass dir s counted ending s₁ ∧ ending ≠ .stopped ∧
      B.Pass dir s₁ shown ending' s' ∧ found = shown.filter (Directory.Matches name kind ·) ∧
      (ending' = .stopped →
        found.length = (counted.filter (Directory.Matches name kind ·)).length) := by
  rw [Directory.find_eq hdir, Program.run_bind] at h
  obtain ⟨counted, stopped, ending, hpass, hwatches, hstopped⟩ :=
    B.enumerate_pass dir (Directory.countMatches name kind) 0 s
  obtain ⟨rfl, hcount⟩ := Directory.watches_count hwatches
  rw [Nat.zero_add] at hcount
  rw [hcount] at h
  by_cases hnone : (counted.filter (Directory.Matches name kind ·)).length = 0 ∨
      (!Allocator.grantsEntries (counted.filter (Directory.Matches name kind ·)).length) = true
  · rw [if_pos hnone] at h
    exact absurd (congrArg Prod.fst h).symm hfound
  · have hsome := (not_or.1 hnone).1
    rw [if_neg hnone, Program.run_bind] at h
    obtain ⟨shown, stopped', ending', hpass', hwatches', hstopped'⟩ := B.enumerate_pass dir
      (Directory.collectMatches name kind (counted.filter (Directory.Matches name kind ·)).length)
      [] ((Directory.enumerate dir (Directory.countMatches name kind) 0).run B s).2
    obtain ⟨hall, -, hstop⟩ := Directory.watches_collect (Nat.pos_of_ne_zero hsome) hwatches'
    obtain ⟨hfst, hsnd⟩ := Prod.mk.inj h
    refine ⟨counted, ending, _, shown, ending', hpass, by simpa using hstopped, hsnd ▸ hpass',
      ?_, ?_⟩
    · exact hfst.symm.trans hall
    · intro hending
      exact hfst ▸ (hstop (hstopped'.2 hending)).1

end Backend

namespace MemoryVolume

open Operation

variable {v v' : MemoryVolume} {dir name : String} {kind : EntryKind} {shown : List Entry}
  {ending : Ending}

/-- **What is read of an open directory are its first children,** all of them up to the end mark. -/
theorem children_of_reads {handle : DirHandle} {d : OpenDirectory}
    (h : backend.Reads handle v shown ending v') (hdir : v.directories.get? handle.index = some d) :
    v'.nodes = v.nodes ∧ ∃ rest, (v.childrenAfter d).map Prod.snd = shown ++ rest ∧
      (ending = .ended → rest = []) := by
  -- By induction on the reads: each moves the record behind the child that it delivers.
  induction h generalizing d with
  | failed hread =>
    rw [readdir_eq hdir] at hread
    split at hread
    · cases hread
      exact ⟨rfl, _, rfl, fun h => by cases h⟩
    · split at hread <;> cases hread
  | @ended v v' mark hread hend =>
    rw [readdir_eq hdir] at hread
    split at hread
    · cases hread
    · split at hread
      · next hnone =>
        cases hread
        exact ⟨rfl, [], by rw [hnone]; rfl, fun _ => rfl⟩
      · next path entry rest hsome =>
        cases hread
        have hname := isEnd_of_mem_childrenAfter (hsome ▸ List.mem_cons_self)
        exact absurd (hname.symm.trans hend) Bool.false_ne_true
  | stopped v => exact ⟨rfl, _, rfl, fun h => by cases h⟩
  | @read v v₁ v' entry shown ending hread hend rest ih =>
    rw [readdir_eq hdir] at hread
    split at hread
    · cases hread
    · split at hread
      · cases hread
        cases hend
      · next path entry left hsome =>
        cases hread
        obtain ⟨hnodes, rest, hleft, hall⟩ := ih (Handles.get?_set_self hdir)
        refine ⟨hnodes, rest, ?_, hall⟩
        have hnext := childrenAfter_next hsome
        rw [hsome, List.map_cons, List.cons_append, ← hnext]
        exact congrArg (entry :: ·) hleft

/-- An opened directory was still there after the injected removal. -/
theorem nodes_of_opendir {handle : DirHandle}
    (h : backend.answer (.opendir dir) v = (.ok handle, v')) :
    v'.nodes = v.beforeOpendir.nodes ∧ v'.pathMap dir = some .directory := by
  simp only [backend, answer, opendir, whenMounted] at h
  split at h
  · split at h
    · next hnode =>
      cases h
      exact ⟨rfl, hnode⟩
    · cases h
    · cases h
  · cases h

/-- **A pass that shows something shows the first children of the directory,** and changes nothing
once the directory is open. -/
theorem children_of_pass (h : backend.Pass dir v shown ending v') (hshown : shown ≠ []) :
    v'.nodes = v.beforeOpendir.nodes ∧ v'.pathMap dir = some .directory ∧
      ∃ rest, (v'.children dir).map Prod.snd = shown ++ rest ∧ (ending = .ended → rest = []) := by
  cases h with
  | refused => exact absurd rfl hshown
  | read hopen reads hclose =>
    obtain ⟨hnodes, hdir⟩ := nodes_of_opendir hopen
    obtain ⟨hsame, rest, hchildren, hall⟩ := children_of_reads reads (opendir_ok hopen).2
    have hnodes' : v'.nodes = v.beforeOpendir.nodes := by
      rw [← hclose]
      exact hsame.trans hnodes
    have hopened := hnodes'.trans hnodes.symm
    rw [childrenAfter_none, ← children_congr hopened] at hchildren
    refine ⟨hnodes', ?_, rest, hchildren, hall⟩
    rw [pathMap, hopened]
    exact hdir

/-- A pass that comes to the end mark shows every child of the directory. -/
theorem mem_of_pass_ended (h : backend.Pass dir v shown .ended v') (hshown : shown ≠ [])
    {entry : Entry} (hentry : v'.pathMap.IsChild dir entry) : entry ∈ shown := by
  obtain ⟨-, -, rest, hchildren, hall⟩ := children_of_pass h hshown
  have hlisting := v'.isListing_children dir
  rw [hchildren, hall rfl, List.append_nil] at hlisting
  exact (hlisting.mem_iff entry).2 hentry

/-- Opening a directory creates no entry. -/
theorem isChild_of_beforeOpendir {entry : Entry} (hnodes : v'.nodes = v.beforeOpendir.nodes)
    (h : v'.pathMap.IsChild dir entry) : v.pathMap.IsChild dir entry := by
  obtain ⟨hname, hsep, node, hnode, hentry⟩ := h
  refine ⟨hname, hsep, node, ?_, hentry⟩
  rw [pathMap, hnodes] at hnode
  simp only [beforeOpendir] at hnode
  split at hnode
  · split at hnode
    · rw [Std.TreeMap.getElem?_erase] at hnode
      split at hnode
      · cases hnode
      · exact hnode
    · exact hnode
  · exact hnode

/-- If a pass that came to the end mark was shown one match, there are no two of them when the
directory is opened again. -/
theorem eq_of_pass_ended {v₁ : MemoryVolume} (h : backend.Pass dir v shown .ended v₁)
    (hone : (shown.filter (Directory.Matches name kind ·)).length = 1)
    (hnodes : v'.nodes = v₁.beforeOpendir.nodes) {first second : Entry}
    (hfirst : v'.pathMap.IsChild dir first ∧ Directory.Matches name kind first)
    (hsecond : v'.pathMap.IsChild dir second ∧ Directory.Matches name kind second) :
    first = second := by
  obtain ⟨only, honly⟩ := List.length_eq_one_iff.1 hone
  have hshown : shown ≠ [] := by
    rintro rfl
    cases honly
  have hboth : ∀ entry, v'.pathMap.IsChild dir entry ∧ Directory.Matches name kind entry →
      entry = only := by
    intro entry hentry
    have hmem := mem_of_pass_ended h hshown (isChild_of_beforeOpendir hnodes hentry.1)
    have hfound : entry ∈ shown.filter (Directory.Matches name kind ·) :=
      List.mem_filter.2 ⟨hmem, by simpa using hentry.2⟩
    rw [honly] at hfound
    exact List.mem_singleton.1 hfound
  exact (hboth first hfirst).trans (hboth second hsecond).symm

/-- A size is answered if exactly one entry was found, and it is the size of that entry. -/
theorem found_of_uniqueSize [Allocator] {size : Nat}
    (h : runOn backend (Directory.uniqueSize dir name kind) v = (.ok size, v')) :
    dir ≠ "" ∧ ∃ entry, (Directory.find dir name kind).run backend v = ([entry], v') ∧
      size = entry.size := by
  have hdir : dir ≠ "" := by
    rintro rfl
    cases h
  refine ⟨hdir, ?_⟩
  have hempty : dir.isEmpty = false := by simpa using hdir
  rcases hfind : (Directory.find dir name kind).run backend v with ⟨found, v₁⟩
  simp only [Directory.uniqueSize, Directory.requireDirectory, hempty, runOn_bind, runOn_pure,
    runOn_ofProgram, hfind, Bool.false_eq_true, if_false] at h
  rcases found with _ | ⟨entry, _ | ⟨other, rest⟩⟩
  · cases h
  · cases h
    exact ⟨entry, rfl, rfl⟩
  · cases h

/-- **An answer is the size of the first entry that matches.**  There is such an entry in the
directory when the answer is given, and if there is another one, then a read failed in one of the
two passes behind the only match that it was shown. -/
theorem uniqueSize_first [Allocator] {size : Nat}
    (h : runOn backend (Directory.uniqueSize dir name kind) v = (.ok size, v')) :
    ∃ shown₁ ending₁ v₁ shown₂ ending₂, backend.Pass dir v shown₁ ending₁ v₁ ∧
      backend.Pass dir v₁ shown₂ ending₂ v' ∧ v'.pathMap dir = some .directory ∧
      ∃ entry, v'.pathMap.IsChild dir entry ∧ Directory.Matches name kind entry ∧
        size = entry.size ∧
        ∀ other, v'.pathMap.IsChild dir other → Directory.Matches name kind other →
          other ≠ entry → Text.encode entry.name < Text.encode other.name ∧
            (ending₁ = .failed ∧
                (shown₁.filter (Directory.Matches name kind ·)).length = 1 ∨
              ending₂ = .failed ∧
                (shown₂.filter (Directory.Matches name kind ·)).length = 1) := by
  obtain ⟨hdir, entry, hfind, hsize⟩ := found_of_uniqueSize h
  obtain ⟨shown₁, ending₁, v₁, shown₂, ending₂, hpass₁, hnot, hpass₂, hfound, hstop⟩ :=
    Backend.find_pass hdir hfind (by simp)
  have hmem : entry ∈ shown₂.filter (Directory.Matches name kind ·) := by
    rw [← hfound]
    exact List.mem_cons_self
  obtain ⟨hnodes, hkept, rest, hchildren, hall⟩ :=
    children_of_pass hpass₂ (List.ne_nil_of_mem (List.mem_filter.1 hmem).1)
  have hlisting := v'.isListing_children dir
  rw [hchildren] at hlisting
  have hentry : v'.pathMap.IsChild dir entry ∧ Directory.Matches name kind entry :=
    ⟨(hlisting.mem_iff entry).1 (List.mem_append_left rest (List.mem_filter.1 hmem).1),
      by simpa using (List.mem_filter.1 hmem).2⟩
  refine ⟨shown₁, ending₁, v₁, shown₂, ending₂, hpass₁, hpass₂, hkept, entry, hentry.1, hentry.2,
    hsize, ?_⟩
  intro other hchild hmatch hother
  -- Another match is behind those that the second pass was shown.
  have hbehind : other ∈ rest := by
    refine (List.mem_append.1 ((hlisting.mem_iff other).2 hchild)).resolve_left fun hshown => ?_
    have hlisted : other ∈ shown₂.filter (Directory.Matches name kind ·) :=
      List.mem_filter.2 ⟨hshown, by simpa using hmatch⟩
    rw [← hfound] at hlisted
    exact hother (List.mem_singleton.1 hlisted)
  refine ⟨(List.pairwise_append.1 hlisting.increasing).2.2 entry (List.mem_filter.1 hmem).1 other
    hbehind, ?_⟩
  cases ending₂ with
  | failed => exact .inr ⟨rfl, by rw [← hfound]; rfl⟩
  | ended =>
    rw [hall rfl] at hbehind
    cases hbehind
  | stopped =>
    have hone : (shown₁.filter (Directory.Matches name kind ·)).length = 1 := (hstop rfl).symm
    cases ending₁ with
    | failed => exact .inl ⟨rfl, hone⟩
    | stopped => exact absurd rfl hnot
    | ended =>
      -- The first pass would have been shown both matches, as both were there then.
      exact absurd (eq_of_pass_ended hpass₁ hone hnodes ⟨hchild, hmatch⟩ hentry) hother

/-- One of two files disappears between the passes, and the other is the only one then. -/
theorem uniqueSize_first_removed :
    letI : Allocator := .upTo 1024 16
    let v := (((newMounted "/lfs").insertFile "/lfs/a" [1]).insertFile "/lfs/ba" [2, 2]).setFaults
      { removeOnOpendir := some (2, "/lfs/ba"), failReaddirAt := some 6 }
    let result := runOn backend (Directory.uniqueSize "/lfs" "a" .file) v
    result.1 = .ok 1 ∧ ∃ entry, result.2.pathMap.IsChild "/lfs" entry ∧
      Directory.Matches "a" .file entry ∧ entry.size = 1 := by
  intro v result
  let _ : Allocator := .upTo 1024 16
  have hanswer : result.1 = .ok 1 := by decide +kernel
  obtain ⟨-, -, -, -, -, -, -, -, entry, hchild, hmatch, hsize, -⟩ :=
    uniqueSize_first (v := v) (Prod.ext hanswer rfl)
  exact ⟨hanswer, entry, hchild, hmatch, hsize.symm⟩

/-- **The entry is not always the only one:** a read of the first pass fails behind the first of two
matches, and the second pass stops there. -/
theorem not_uniqueSize_only :
    letI : Allocator := .upTo 1024 16
    ¬∀ (v v' : MemoryVolume) (dir name : String) (kind : EntryKind) (size : Nat),
      v.mounted = true → dir ≠ "" →
      runOn backend (Directory.uniqueSize dir name kind) v = (.ok size, v') →
      ∃ entry, (∀ other, v'.pathMap.IsChild dir other ∧ Directory.Matches name kind other ↔
        other = entry) ∧ size = entry.size := by
  intro h
  let v := (((newMounted "/lfs").insertFile "/lfs/a" [1]).insertFile "/lfs/b" [2, 2]).setFaults
    { failReaddirAt := some 2 }
  let _ : Allocator := .upTo 1024 16
  let result := runOn backend (Directory.uniqueSize "/lfs" "" .file) v
  have hanswer : result.1 = .ok 1 := by decide +kernel
  obtain ⟨entry, honly, -⟩ := h v result.2 "/lfs" "" .file 1 rfl (by decide) (Prod.ext hanswer rfl)
  have hfirst : result.2.pathMap.IsChild "/lfs" (.ofFile "a" 1) :=
    ⟨by decide, by decide, .file [1], by decide +kernel, rfl⟩
  have hsecond : result.2.pathMap.IsChild "/lfs" (.ofFile "b" 2) :=
    ⟨by decide, by decide, .file [2, 2], by decide +kernel, rfl⟩
  have hboth := ((honly _).1 ⟨hfirst, by decide⟩).trans ((honly _).1 ⟨hsecond, by decide⟩).symm
  exact absurd hboth (by decide)

end MemoryVolume
end FlashVolume

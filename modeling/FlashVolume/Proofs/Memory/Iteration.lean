import FlashVolume.Proofs.Memory.Children
import FlashVolume.Proofs.Memory.Records
import FlashVolume.Proofs.Storage.Running
/-!
# Reading a directory that changes

Sections 4.3 and 6 of the specification: `opendir`, `readdir` and `closedir` while a directory
changes.

An open directory is read while other steps are taken, which may change the directory between any
two reads. The record of the open directory is all that a read knows of those before it, and the
reads only ever move it forward (`IsReading.apply`): so what has been delivered is not delivered
again, and a child that is there all the time is delivered when the record moves past it.
-/

namespace FlashVolume
namespace MemoryVolume

open Operation

variable {v : MemoryVolume} {dir : DirHandle} {path : String} {last : Option String}
  {steps : List Step} {i j : Nat}

/-- The volume after as many of the steps. -/
def atTime (v : MemoryVolume) (steps : List Step) (i : Nat) : MemoryVolume :=
  v.after (steps.take i)

/-- At the time the directory is read, and the read is answered so. -/
structure ReadsAt (v : MemoryVolume) (steps : List Step) (dir : DirHandle) (i : Nat)
    (answer : Except StorageError Entry) : Prop where
  step : steps[i]? = some (.call (.readdir dir))
  answer : (backend.answer (.readdir dir) (v.atTime steps i)).1 = answer

/-- The reads of an open directory deliver its children, whatever the steps between them do. -/
structure ReadsExactly (v : MemoryVolume) (steps : List Step) (dir : DirHandle) (path : String) :
    Prop where
  /-- The names come in the order of their bytes, so none comes twice. -/
  increasing : ∀ i j entry entry', i < j → v.ReadsAt steps dir i (.ok entry) →
    v.ReadsAt steps dir j (.ok entry') → entry ≠ .endMark → entry' ≠ .endMark →
      Text.encode entry.name < Text.encode entry'.name
  /-- What is delivered is a child, as it is at that time. -/
  child : ∀ i entry, v.ReadsAt steps dir i (.ok entry) → entry ≠ .endMark →
    (v.atTime steps i).pathMap.IsChild path entry
  /-- A child that is there up to the end mark has been delivered once. -/
  complete : ∀ j name, v.ReadsAt steps dir j (.ok .endMark) → name ≠ "" → '/' ∉ name.toList →
    (∀ i ≤ j, (v.atTime steps i).pathMap (Path.below path ++ name) ≠ none) →
      ∃! i, i < j ∧ ∃ entry, v.ReadsAt steps dir i (.ok entry) ∧ entry.name = name
  /-- A read that fails is counted and leaves everything else as it is, so the next one is where
  this one was. -/
  failed : ∀ i error, v.ReadsAt steps dir i (.error error) →
    v.atTime steps (i + 1) = (v.atTime steps i).beforeReaddir

/-! ### Times -/

/-- The volume at the next time has gone through one step more. -/
theorem atTime_succ {step : Step} (h : steps[i]? = some step) :
    v.atTime steps (i + 1) = step.apply (v.atTime steps i) := by
  rw [atTime, atTime, List.take_add_one, h, after, List.foldl_append]
  rfl

/-- After the last step nothing happens. -/
theorem atTime_succ_of_none (h : steps[i]? = none) :
    v.atTime steps (i + 1) = v.atTime steps i := by
  rw [atTime, atTime, List.take_add_one, h, Option.toList_none, List.append_nil]

/-! ### One read -/

/-- The record of the open directory: what it is open on, and the path that was delivered last. -/
def IsReading (v : MemoryVolume) (dir : DirHandle) (path : String) (last : Option String) : Prop :=
  v.directories.get? dir.index = some ⟨path, last⟩

/-- A read moves the record to a child behind what was delivered, and passes no other. -/
structure MovesTo (v v' : MemoryVolume) (dir : DirHandle) (path : String) (last : Option String)
    (entry : Entry) : Prop where
  child : v.pathMap.IsChild path entry
  behind : isAfter last (Path.below path ++ entry.name)
  next : ∀ p other, (p, other) ∈ v.children path → isAfter last p →
    p ≠ Path.below path ++ entry.name → isAfter (some (Path.below path ++ entry.name)) p
  record : v'.IsReading dir path (some (Path.below path ++ entry.name))

/-- **What a read can do.** It fails, it is at the end, or it moves the record. -/
theorem IsReading.readdir (h : v.IsReading dir path last) :
    (∃ e, backend.answer (.readdir dir) v = (.error e, v.beforeReaddir)) ∨
    (v.childrenAfter ⟨path, last⟩ = [] ∧
      backend.answer (.readdir dir) v = (.ok .endMark, v.beforeReaddir)) ∨
    ∃ entry v', backend.answer (.readdir dir) v = (.ok entry, v') ∧
      MovesTo v v' dir path last entry := by
  rw [readdir_eq h]
  split
  · exact .inl ⟨_, rfl⟩
  · cases hleft : v.childrenAfter ⟨path, last⟩ with
    | nil => exact .inr (.inl ⟨rfl, rfl⟩)
    | cons first rest =>
      obtain ⟨p, entry⟩ := first
      have hfirst : (p, entry) ∈ v.childrenAfter ⟨path, last⟩ := by
        rw [hleft]
        exact List.mem_cons_self
      obtain ⟨hmem, hbehind⟩ := List.mem_filter.1 hfirst
      obtain ⟨rfl, hchild⟩ := mem_children.1 hmem
      refine .inr (.inr ⟨entry, _, rfl, hchild, hbehind, ?_, Handles.get?_set_self h⟩)
      intro q other hother hafter hne
      have hrest : (q, other) ∈ v.childrenAfter ⟨path, last⟩ :=
        List.mem_filter.2 ⟨hother, hafter⟩
      rw [hleft, List.mem_cons, Prod.mk.injEq] at hrest
      have hlater : (q, other) ∈ v.childrenAfter ⟨path, some (Path.below path ++ entry.name)⟩ := by
        rw [childrenAfter_next hleft]
        exact hrest.resolve_left fun heq => hne heq.1
      exact (List.mem_filter.1 hlater).2

/-- **What a step can do to the record.** It leaves it as it is, unless it is a read that
delivers. -/
theorem IsReading.apply {step : Step} (hkeeps : step.KeepsOpen dir)
    (h : v.IsReading dir path last) :
    (step.apply v).IsReading dir path last ∨
      step = .call (.readdir dir) ∧ ∃ entry, (backend.answer (.readdir dir) v).1 = .ok entry ∧
        MovesTo v (step.apply v) dir path last entry := by
  by_cases hread : step = .call (.readdir dir)
  · subst hread
    rcases h.readdir with ⟨e, hanswer⟩ | ⟨-, hanswer⟩ | ⟨entry, v', hanswer, hmoves⟩
    · left
      rw [Step.apply, hanswer]
      exact h
    · left
      rw [Step.apply, hanswer]
      exact h
    · right
      rw [Step.apply, hanswer]
      exact ⟨rfl, entry, rfl, hmoves⟩
  · exact .inl (get?_apply hkeeps hread h)

/-- At the end mark no child is still to come. -/
theorem ReadsAt.childrenAfter_eq_nil (h : v.ReadsAt steps dir j (.ok .endMark))
    (hreading : (v.atTime steps j).IsReading dir path last) :
    (v.atTime steps j).childrenAfter ⟨path, last⟩ = [] := by
  have hanswer := h.answer
  rcases hreading.readdir with ⟨e, heq⟩ | ⟨hnone, -⟩ | ⟨entry, v', heq, hmoves⟩
  · rw [heq] at hanswer
    cases hanswer
  · exact hnone
  · rw [heq] at hanswer
    cases hanswer
    exact absurd rfl hmoves.child.1

/-! ### Any number of steps -/

section Reading

variable (hkeeps : ∀ step ∈ steps, step.KeepsOpen dir)
include hkeeps

/-- **The record only moves forward.** -/
theorem IsReading.advance (hij : i ≤ j) (h : (v.atTime steps i).IsReading dir path last) :
    ∃ last', (v.atTime steps j).IsReading dir path last' ∧
      ∀ p, isAfter last' p → isAfter last p := by
  -- By induction on the steps from `i` on, of which only the reads that deliver move the record.
  induction j, hij using Nat.le_induction with
  | base => exact ⟨last, h, fun p hp => hp⟩
  | succ j hij ih =>
    obtain ⟨last', hreading, hforward⟩ := ih
    cases hstep : steps[j]? with
    | none =>
      rw [atTime_succ_of_none hstep]
      exact ⟨last', hreading, hforward⟩
    | some step =>
      rw [atTime_succ hstep]
      rcases hreading.apply (hkeeps step (List.mem_of_getElem? hstep)) with
        hsame | ⟨-, entry, -, hmoves⟩
      · exact ⟨last', hsame, hforward⟩
      · exact ⟨_, hmoves.record, fun p hp => hforward p (isAfter_trans hmoves.behind hp)⟩

variable (hstart : v.IsReading dir path none)
include hstart

/-- The directory is open all the time. -/
theorem exists_isReading (i : Nat) : ∃ last, (v.atTime steps i).IsReading dir path last := by
  obtain ⟨last, hreading, -⟩ := IsReading.advance hkeeps (Nat.zero_le i) hstart
  exact ⟨last, hreading⟩

/-- What is delivered moves the record, from what is delivered before it. -/
theorem ReadsAt.movesTo {entry : Entry} (h : v.ReadsAt steps dir i (.ok entry))
    (hne : entry ≠ .endMark) : ∃ last, (v.atTime steps i).IsReading dir path last ∧
      MovesTo (v.atTime steps i) (v.atTime steps (i + 1)) dir path last entry := by
  obtain ⟨last, hreading⟩ := exists_isReading hkeeps hstart i
  refine ⟨last, hreading, ?_⟩
  have hanswer := h.answer
  rw [atTime_succ h.step, Step.apply]
  rcases hreading.readdir with ⟨e, heq⟩ | ⟨-, heq⟩ | ⟨entry', v', heq, hmoves⟩
  · rw [heq] at hanswer
    cases hanswer
  · rw [heq] at hanswer
    exact absurd (Except.ok.inj hanswer).symm hne
  · rw [heq] at hanswer ⊢
    cases hanswer
    exact hmoves

/-- **Of two that are delivered, the later one has the greater name.** -/
theorem ReadsAt.encode_lt {entry entry' : Entry} (hij : i < j)
    (h : v.ReadsAt steps dir i (.ok entry)) (h' : v.ReadsAt steps dir j (.ok entry'))
    (hne : entry ≠ .endMark) (hne' : entry' ≠ .endMark) :
    Text.encode entry.name < Text.encode entry'.name := by
  obtain ⟨_, -, hmoves⟩ := h.movesTo hkeeps hstart hne
  obtain ⟨last, hreading, hmoves'⟩ := h'.movesTo hkeeps hstart hne'
  obtain ⟨last', hreading', hforward⟩ := hmoves.record.advance hkeeps hij
  -- The record at the second read is the one that the first has been moved to.
  have hlast : last = last' := by
    have hrecord := Option.some.inj (hreading.symm.trans hreading')
    exact congrArg OpenDirectory.last hrecord
  have hafter := hforward _ (hlast ▸ hmoves'.behind)
  rw [isAfter, Option.all_some, Ordering.isLT_iff_eq_lt, compare_lt_iff_lt,
    Text.append_lt_append_iff] at hafter
  exact Text.encode_lt hafter

/-- **A child that stays is delivered, or it is still to come.** -/
theorem delivered_or_isAfter {name : String} (hname : name ≠ "") (hsep : '/' ∉ name.toList)
    (hthere : ∀ i ≤ j, (v.atTime steps i).pathMap (Path.below path ++ name) ≠ none) :
    (∃ i < j, ∃ entry, v.ReadsAt steps dir i (.ok entry) ∧ entry.name = name) ∨
      ∃ last, (v.atTime steps j).IsReading dir path last ∧
        isAfter last (Path.below path ++ name) := by
  -- Once it has been delivered there is nothing to show; until then it is behind the record.
  induction j with
  | zero => exact .inr ⟨none, hstart, rfl⟩
  | succ j ih =>
    rcases ih fun i hi => hthere i (Nat.le_succ_of_le hi) with
      ⟨i, hi, hdelivered⟩ | ⟨last, hreading, hafter⟩
    · exact .inl ⟨i, Nat.lt_succ_of_lt hi, hdelivered⟩
    · cases hstep : steps[j]? with
      | none =>
        rw [atTime_succ_of_none hstep]
        exact .inr ⟨last, hreading, hafter⟩
      | some step =>
        rcases hreading.apply (hkeeps step (List.mem_of_getElem? hstep)) with
          hsame | ⟨rfl, entry, hanswer, hmoves⟩
        · rw [atTime_succ hstep]
          exact .inr ⟨last, hsame, hafter⟩
        · by_cases heq : entry.name = name
          · exact .inl ⟨j, Nat.lt_succ_self j, entry, ⟨hstep, hanswer⟩, heq⟩
          · -- The record moves to another child, and does not pass this one.
            obtain ⟨node, hnode⟩ := Option.ne_none_iff_exists'.1 (hthere j (Nat.le_succ j))
            have hchild := mem_children_of_node hname hsep hnode
            have hother : Path.below path ++ name ≠ Path.below path ++ entry.name :=
              fun happend => heq (String.append_right_inj _ |>.1 happend).symm
            rw [atTime_succ hstep]
            exact .inr ⟨_, hmoves.record, hmoves.next _ _ hchild hafter hother⟩

/-- **A child that is there up to the end mark has been delivered.** -/
theorem exists_delivered {name : String} (h : v.ReadsAt steps dir j (.ok .endMark))
    (hname : name ≠ "") (hsep : '/' ∉ name.toList)
    (hthere : ∀ i ≤ j, (v.atTime steps i).pathMap (Path.below path ++ name) ≠ none) :
    ∃ i < j, ∃ entry, v.ReadsAt steps dir i (.ok entry) ∧ entry.name = name := by
  refine (delivered_or_isAfter hkeeps hstart hname hsep hthere).resolve_right ?_
  rintro ⟨last, hreading, hafter⟩
  obtain ⟨node, hnode⟩ := Option.ne_none_iff_exists'.1 (hthere j (Nat.le_refl j))
  have hleft : (Path.below path ++ name, node.toEntry name) ∈
      (v.atTime steps j).childrenAfter ⟨path, last⟩ :=
    List.mem_filter.2 ⟨mem_children_of_node hname hsep hnode, hafter⟩
  rw [h.childrenAfter_eq_nil hreading] at hleft
  exact absurd hleft List.not_mem_nil

/-- **An open directory is read exactly.** -/
theorem readsExactly : v.ReadsExactly steps dir path where
  increasing i j entry entry' hij h h' hne hne' := h.encode_lt hkeeps hstart hij h' hne hne'
  child i entry h hne := by
    obtain ⟨last, -, hmoves⟩ := h.movesTo hkeeps hstart hne
    exact hmoves.child
  complete j name h hname hsep hthere := by
    obtain ⟨i, hi, entry, hread, rfl⟩ := exists_delivered hkeeps hstart h hname hsep hthere
    have hne : ∀ entry' : Entry, entry'.name = entry.name → entry' ≠ .endMark := by
      rintro _ hsame rfl
      exact hname hsame.symm
    refine ⟨i, ⟨hi, entry, hread, rfl⟩, ?_⟩
    rintro i' ⟨-, entry', hread', hsame⟩
    -- At two times the names would be in order.
    rcases Nat.lt_trichotomy i' i with hless | heq | hless
    · have hlt := hread'.encode_lt hkeeps hstart hless hread (hne _ hsame) (hne _ rfl)
      rw [hsame] at hlt
      exact absurd hlt (List.lt_irrefl _)
    · exact heq
    · have hlt := hread.encode_lt hkeeps hstart hless hread' (hne _ rfl) (hne _ hsame)
      rw [hsame] at hlt
      exact absurd hlt (List.lt_irrefl _)
  failed i error h := by
    obtain ⟨last, hreading⟩ := exists_isReading hkeeps hstart i
    have hanswer := h.answer
    rw [atTime_succ h.step, Step.apply]
    rcases hreading.readdir with ⟨e, heq⟩ | ⟨-, heq⟩ | ⟨entry, v', heq, -⟩
    · rw [heq]
    · rw [heq] at hanswer
      cases hanswer
    · rw [heq] at hanswer
      cases hanswer

end Reading

/-! ### Listing -/

/-- **A volume without faults lists the children of a directory.** -/
theorem runOn_list (hv : v.IsReady) (hpath : path ≠ "") (hnode : v.pathMap path = some .directory) :
    ∃ v', runOn backend (Directory.list path) v = (.ok ((v.children path).map Prod.snd), v') ∧
      v'.nodes = v.nodes := by
  obtain ⟨v', hrun, -, hnodes⟩ := (serves_children v hnode).run_enumerate ⟨hv, rfl⟩
    (fun entries entry => .yield (entries ++ [entry])) []
  refine ⟨v', ?_, hnodes⟩
  rw [foldUntil_yield, foldl_concat, List.nil_append] at hrun
  have hsome : path.isEmpty = false := by simpa using hpath
  simp only [Directory.list, Directory.requireDirectory, Directory.collect, runOn_bind,
    runOn_ofProgram, hsome, Bool.false_eq_true, if_false, runOn_pure, hrun]

/-- **The children of a directory are enumerated exactly.**  While other steps are taken, which may
change them, and reads may fail, an open directory is read in the order of names, each read delivers
a child that is there, and one that is there all the time is delivered once. Without faults and
other steps a listing has all of them. -/
theorem enumerates_exactly (path : String) :
    (∀ (v₀ v : MemoryVolume) (dir : DirHandle) (steps : List Step),
      backend.answer (.opendir path) v₀ = (.ok dir, v) → (∀ step ∈ steps, step.KeepsOpen dir) →
        v.ReadsExactly steps dir path) ∧
    ∀ v : MemoryVolume, v.IsReady → path ≠ "" → v.pathMap path = some .directory →
      ∃ entries v', runOn backend (Directory.list path) v = (.ok entries, v') ∧
        v'.nodes = v.nodes ∧ v.pathMap.IsListing path entries := by
  constructor
  · intro v₀ v dir steps hopen hkeeps
    exact readsExactly hkeeps (opendir_ok hopen).2
  · intro v hv hpath hnode
    obtain ⟨v', hrun, hnodes⟩ := runOn_list hv hpath hnode
    exact ⟨_, v', hrun, hnodes, isListing_children v path⟩

/-- A read fails, a file that has not been delivered is removed, and others are written before and
behind the last one that has been; what is below `/lfs/a` is between `/lfs/a.x` and `/lfs/a0`. -/
theorem enumerates_exactly_changed :
    let v₀ := (((newMounted "/lfs").insertFile "/lfs/a/x" [1]).insertFile "/lfs/a.x" [2, 2])
      |>.insertFile "/lfs/a0" [3] |>.insertFile "/lfs/b" [4]
    let opened := backend.answer (.opendir "/lfs") v₀
    let v := opened.2
    let read : Step := .call (.readdir ⟨0⟩)
    let steps : List Step := [read, read, .faults { failReaddirAt := some 1 }, read,
      .call (.unlink "/lfs/b"), .request (.upTo 0 0) {} (.file (.write "/lfs/a.b" [5])),
      .request (.upTo 0 0) {} (.file (.write "/lfs/c" [6, 6, 6])), read, read, read]
    let listing := runOn backend (Directory.list "/lfs") v₀
    let listed := [.ofDirectory "a", .ofFile "a.x" 2, .ofFile "a0" 1, .ofFile "b" 1]
    opened.1 = .ok ⟨0⟩ ∧ (∀ step ∈ steps, step.KeepsOpen ⟨0⟩) ∧
      v.ReadsExactly steps ⟨0⟩ "/lfs" ∧
      v.ReadsAt steps ⟨0⟩ 0 (.ok (.ofDirectory "a")) ∧
      v.ReadsAt steps ⟨0⟩ 1 (.ok (.ofFile "a.x" 2)) ∧
      v.ReadsAt steps ⟨0⟩ 3 (.error (injected "injected readdir failure")) ∧
      v.ReadsAt steps ⟨0⟩ 7 (.ok (.ofFile "a0" 1)) ∧
      v.ReadsAt steps ⟨0⟩ 8 (.ok (.ofFile "c" 3)) ∧
      v.ReadsAt steps ⟨0⟩ 9 (.ok .endMark) ∧
      listing.1 = .ok listed ∧ listing.2.nodes = v₀.nodes ∧
      v₀.pathMap.IsListing "/lfs" listed := by
  intro v₀ opened v read steps listing listed
  have hopen : opened.1 = .ok ⟨0⟩ := by decide
  have hkeeps : ∀ step ∈ steps, step.KeepsOpen ⟨0⟩ := by
    simp [steps, read, Step.KeepsOpen, Call.Closes]
  have hreads := (enumerates_exactly "/lfs").1 v₀ v ⟨0⟩ steps (Prod.ext hopen rfl) hkeeps
  refine ⟨hopen, hkeeps, hreads, ⟨rfl, by decide⟩, ⟨rfl, by decide⟩, ⟨rfl, by decide⟩,
    ⟨rfl, by decide⟩, ⟨rfl, by decide⟩, ⟨rfl, by decide⟩, ?_⟩
  have hready : v₀.IsReady := ⟨rfl, rfl⟩
  have hnode : v₀.pathMap "/lfs" = some .directory := by decide
  have hchildren : (v₀.children "/lfs").map Prod.snd = listed := by decide
  obtain ⟨entries, v', hrun, hnodes, hlisting⟩ :=
    (enumerates_exactly "/lfs").2 v₀ hready (by decide) hnode
  obtain ⟨v'', hrun', -⟩ := runOn_list hready (by decide) hnode
  rw [hchildren] at hrun'
  obtain ⟨rfl, rfl⟩ : entries = listed ∧ v' = v'' := by
    simpa using hrun.symm.trans hrun'
  exact ⟨congrArg Prod.fst hrun, (congrArg (·.2.nodes) hrun).trans hnodes, hlisting⟩

end MemoryVolume
end FlashVolume

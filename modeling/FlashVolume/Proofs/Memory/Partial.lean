import FlashVolume.Proofs.Memory.Deleting
import FlashVolume.Proofs.Memory.Uniqueness
import FlashVolume.Proofs.Queries
/-!
# Removals that stop halfway

Sections 4.4 and 8 of the specification: `delete_matching` that stops.

`deleteMatching` answers a number of files, and no error: when it stops halfway, the number is all
that says so. The number is exact, whatever the faults of the volume and whenever they were set. The
files that are gone are as many of those that were found, from the first one on, and behind them
comes one that says why there are no more (`Ends`):

| behind those that are gone | `unlink` |
| --- | --- |
| nothing | none |
| a file whose path does not resolve | none |
| a file that is not removed | one, and it fails |

The calls are those of the very run that leaves the volume (`Backend.Answers`), so that no removal
is attempted behind the one that failed. Only the fault that removes an entry behind a call's back
is left out.
-/

namespace FlashVolume

/-! ### Removals in a run -/

/-- The path that the event was to remove, and what was answered, if it is an `unlink`. -/
def Event.unlink? : Event → Option (String × Except StorageError Unit)
  | ⟨.unlink path, answer⟩ => some (path, answer)
  | _ => none

/-- What the events were to remove, in order, and what was answered. -/
def unlinks (events : List Event) : List (String × Except StorageError Unit) :=
  events.filterMap Event.unlink?

/-- Removals made later come later. -/
theorem unlinks_append (events events' : List Event) :
    unlinks (events ++ events') = unlinks events ++ unlinks events' :=
  List.filterMap_append

/-- Queries remove nothing. -/
theorem unlinks_of_isQuery {events : List Event} (h : ∀ event ∈ events, event.call.IsQuery) :
    unlinks events = [] := by
  refine List.filterMap_eq_nil_iff.2 fun event hevent => ?_
  have hquery := h event hevent
  obtain ⟨c, answer⟩ := event
  cases c with
  | unlink path => cases hquery
  | _ => rfl

namespace Directory

variable {dir : String} {config : Config}

/-- Why the removal of entries goes no further, with the entries that are left and with what was to
be removed behind those that are gone. -/
inductive Ends (dir : String) (config : Config) :
    List Entry → List (String × Except StorageError Unit) → Prop where
  /-- Nothing is left. -/
  | complete : Ends dir config [] []
  /-- The next entry does not resolve. -/
  | unresolved {entry : Entry} {rest : List Entry} (e : Error)
      (h : Path.resolve dir entry.name config = .error e) : Ends dir config (entry :: rest) []
  /-- The next entry is not removed. -/
  | refused {entry : Entry} {rest : List Entry} {path : String} (e : StorageError)
      (h : Path.resolve dir entry.name config = .ok path) :
      Ends dir config (entry :: rest) [(path, .error e)]

/-- **Entries are removed up to the first that is not,** and the rest is left alone. -/
theorem makes_deleteEach {entries : List Entry} {deleted : Nat} {answer : Except Error Nat}
    {events : List Event} (h : (deleteEach dir config entries deleted).Makes events answer) :
    ∃ removed rest attempt, entries = removed ++ rest ∧ Reports config deleted removed answer ∧
      (∀ entry ∈ removed,
        Path.resolve dir entry.name config = .ok (dir ++ "/" ++ entry.name)) ∧
      unlinks events =
        removed.map (fun entry => (dir ++ "/" ++ entry.name, .ok ())) ++ attempt ∧
      Ends dir config rest attempt := by
  -- By induction on the entries: the first is not resolved, is refused, or is removed.
  induction entries generalizing deleted events with
  | nil =>
    obtain ⟨rfl, rfl⟩ := Operation.makes_pure h
    exact ⟨[], [], [], rfl, .inl rfl, by simp, rfl, .complete⟩
  | cons entry entries ih =>
    cases hresolve : Path.resolve dir entry.name config with
    | error e =>
      obtain ⟨rfl, hreports⟩ : events = [] ∧ Reports config deleted [] answer := by
        simp only [deleteEach, hresolve] at h
        cases e with
        | overflow =>
          obtain ⟨rfl, rfl⟩ := Operation.makes_throw h
          exact ⟨rfl, .inr ⟨rfl, rfl, Path.maxAbsPathLength_of_resolve hresolve⟩⟩
        | _ =>
          obtain ⟨rfl, rfl⟩ := Operation.makes_pure h
          exact ⟨rfl, .inl rfl⟩
      exact ⟨[], entry :: entries, [], rfl, hreports, by simp, rfl, .unresolved e hresolve⟩
    | ok path =>
      simp only [deleteEach, hresolve] at h
      rcases Operation.makes_bind h with
        ⟨_, hunlink, -⟩ | ⟨_, later, outcome, rfl, hunlink, hlater⟩
      · obtain ⟨_, -, hnever⟩ := Operation.makes_attempt hunlink
        cases hnever
      · obtain ⟨_, rfl, heq⟩ := Operation.makes_attempt hunlink
        obtain rfl := Except.ok.inj heq
        cases outcome with
        | error e =>
          obtain ⟨rfl, rfl⟩ := Operation.makes_pure hlater
          exact ⟨[], entry :: entries, _, rfl, .inl rfl, by simp, rfl, .refused e hresolve⟩
        | ok =>
          obtain ⟨removed, rest, attempt, rfl, hreports, hresolved, hunlinks, hends⟩ := ih hlater
          obtain ⟨bound, hbound⟩ := Path.exists_bound_of_resolve hresolve
          obtain rfl := Path.eq_of_resolve hresolve
          refine ⟨entry :: removed, rest, attempt, rfl, hreports.cons hbound entry,
            List.forall_mem_cons.2 ⟨hresolve, hresolved⟩, ?_, hends⟩
          exact congrArg ((dir ++ "/" ++ entry.name, .ok ()) :: ·) hunlinks

/-- Finding comes first, and then the removal of what was found. -/
theorem run_deleteMatching [Allocator] (hdir : dir ≠ "") (name : String) (config : Config) :
    (deleteMatching dir name config).run = (find dir name .file).bind fun found =>
      (deleteEach dir config found 0).run := by
  have hempty : ¬dir.isEmpty = true := by simpa using hdir
  rw [deleteMatching, requireDirectory, if_neg hempty]
  exact Program.bind_bind _ _ _

end Directory

namespace MemoryVolume

open Operation

variable {v v' : MemoryVolume} {dir name : String} {found : List Entry}

/-! ### What is found -/

/-- What is found are files of the directory that match, each with a name of its own. -/
theorem isMatch_of_find [Allocator] (hdir : dir ≠ "")
    (h : (Directory.find dir name .file).run backend v = (found, v')) :
    (found.map Entry.name).Nodup ∧ ∀ entry ∈ found, v'.pathMap.IsMatch dir name entry := by
  by_cases hnone : found = []
  · subst hnone
    exact ⟨.nil, by simp⟩
  · obtain ⟨_, _, _, shown, ending, -, -, hpass, rfl, -⟩ := Backend.find_pass hdir h hnone
    have hshown : shown ≠ [] := by
      rintro rfl
      exact hnone rfl
    obtain ⟨-, -, rest, hchildren, -⟩ := children_of_pass hpass hshown
    have hlisting := v'.isListing_children dir
    rw [hchildren] at hlisting
    have hordered := (List.pairwise_append.1 hlisting.increasing).1
    refine ⟨nodup_names (hordered.filter _), fun entry hentry => ?_⟩
    obtain ⟨hmem, hmatch⟩ := List.mem_filter.1 hentry
    exact ⟨(hlisting.mem_iff entry).1 (List.mem_append_left rest hmem), by simpa using hmatch⟩

/-! ### What stays -/

/-- What a volume is apart from its entries: where it is mounted, whether it is, and its faults. -/
def setting (v : MemoryVolume) : String × Bool × Faults :=
  (v.mountPoint, v.mounted, v.faults)

/-- Only a mount changes more than entries. -/
theorem setting_answer {α : Type} {c : Call α} (hc : ¬c.Mounts) (v : MemoryVolume) :
    (backend.answer c v).2.setting = v.setting := by
  cases c with
  | mount => exact absurd trivial hc
  | _ =>
    simp only [backend, MemoryVolume.answer, statvfs, MemoryVolume.open, openAt, MemoryVolume.read,
      MemoryVolume.write, MemoryVolume.seek, MemoryVolume.truncate, close, MemoryVolume.stat,
      opendir, beforeOpendir, readdir, closedir, mkdir, unlink, whenMounted]
    repeat' split
    all_goals rfl

/-- What was injected stays, unless a volume is mounted anew. -/
theorem setting_run {α : Type} {p : Program α} (hp : p.Only fun c => ¬c.Mounts)
    (v : MemoryVolume) : (p.run backend v).2.setting = v.setting :=
  Program.Only.run_rel (R := fun (v v' : MemoryVolume) => v'.setting = v.setting) (fun _ => rfl)
    (fun _ _ _ h h' => h'.trans h) (fun _ v hc => setting_answer hc v) hp v

/-! ### Removing what was found -/

/-- The removed files are a first part of those that were found, the events say what became of
the next one, and nothing but those files is gone. -/
structure RemovesFront (v v' : MemoryVolume) (dir : String) (config : Config)
    (found removed : List Entry) (events : List Event) : Prop where
  front : ∃ rest attempt, found = removed ++ rest ∧
    unlinks events = removed.map (fun entry => (dir ++ "/" ++ entry.name, .ok ())) ++ attempt ∧
    Directory.Ends dir config rest attempt
  resolved : ∀ entry ∈ removed,
    Path.resolve dir entry.name config = .ok (dir ++ "/" ++ entry.name)
  file : ∀ entry ∈ removed, ∃ data, v.pathMap (dir ++ "/" ++ entry.name) = some (.file data)
  distinct : (removed.map Entry.name).Nodup
  pathMap : v'.pathMap = v.pathMap.without (removed.map fun entry => dir ++ "/" ++ entry.name)
  setting : v'.setting = v.setting

/-- What was found by a search that changed nothing is removed. -/
theorem RemovesFront.behind {v₁ : MemoryVolume} {config : Config} {removed : List Entry}
    {before events : List Event} (h : v₁.RemovesFront v' dir config found removed events)
    (hbefore : unlinks before = []) (hmap : v₁.pathMap = v.pathMap)
    (hsetting : v₁.setting = v.setting) :
    v.RemovesFront v' dir config found removed (before ++ events) where
  front := by
    rw [unlinks_append, hbefore, List.nil_append]
    exact h.front
  resolved := h.resolved
  file := by
    rw [← hmap]
    exact h.file
  distinct := h.distinct
  pathMap := by
    rw [← hmap]
    exact h.pathMap
  setting := h.setting.trans hsetting

/-- **Of files, a first part is removed.** -/
theorem exists_removesFront (config : Config) (hmounted : v.mounted = true) (hdir : dir ≠ "")
    (hdistinct : (found.map Entry.name).Nodup)
    (hfiles : ∀ entry ∈ found, entry.name ≠ "" ∧
      ∃ data, v.pathMap (dir ++ "/" ++ entry.name) = some (.file data)) :
    ∃ removed answer events v',
      runOn backend (Directory.deleteEach dir config found 0) v = (answer, v') ∧
      Directory.Reports config 0 removed answer ∧
      (Directory.deleteEach dir config found 0).Makes events answer ∧
      backend.Answers v events v' ∧ v.RemovesFront v' dir config found removed events := by
  obtain ⟨removed, rest, answer, v', hsplit, hrun, hreports, -, -, hmap, -, -⟩ :=
    run_deleteEach config hmounted hdir hdistinct hfiles 0
  obtain ⟨events, hmakes, hanswers⟩ := Program.exists_answers_run backend
    (Directory.deleteEach dir config found 0).run v
  have hsetting := setting_run
    (Program.Only.mono (Directory.deleteEach_only dir config found 0) fun _ hc => hc.2) v
  rw [runOn] at hrun
  rw [hrun] at hmakes hanswers hsetting
  obtain ⟨removed', rest', attempt, hsplit', hreports', hresolved, hunlinks, hends⟩ :=
    Directory.makes_deleteEach hmakes
  -- Both parts have the length that is counted.
  obtain ⟨rfl, rfl⟩ : removed' = removed ∧ rest' = rest :=
    List.append_inj (hsplit'.symm.trans hsplit) (hreports'.length_eq hreports)
  refine ⟨removed', answer, events, v', hrun, hreports, hmakes, hanswers,
    ⟨rest', attempt, hsplit, hunlinks, hends⟩, hresolved, fun entry hentry => ?_, ?_, hmap,
    hsetting⟩
  · have hmem : entry ∈ found := hsplit ▸ List.mem_append_left rest' hentry
    exact (hfiles entry hmem).2
  · rw [hsplit, List.map_append] at hdistinct
    exact hdistinct.of_append_left

/-- **A removal that stops halfway removes exactly what it counts.**  Whatever faults a mounted
volume has, and whichever of them come true, the answer is the number of the files that are gone.
They are the first of those that were found, and nothing is attempted behind the one that ends them.
Only an entry must not be removed behind a call's back. A configuration without a longest path may
stop the operation before it answers; then nothing is gone. -/
theorem deleteMatching_removesFront [Allocator] (hmounted : v.mounted = true) (hv : v.Undisturbed)
    (hslash : dir.toList.getLast? ≠ some '/') (name : String) (config : Config) :
    let operation := Directory.deleteMatching dir name config
    let found := ((Directory.find dir name .file).run backend v).1
    (dir = "" → runOn backend operation v = (.error (.invalidInput "empty directory"), v)) ∧
    (dir ≠ "" → ∃ removed answer events v', runOn backend operation v = (answer, v') ∧
      (answer = .ok removed.length ∨
        answer = .error .overflow ∧ removed = [] ∧ Word.maxUnsigned64 < config.sizeSum) ∧
      operation.Makes events answer ∧ backend.Answers v events v' ∧
      v.RemovesFront v' dir config found removed events) := by
  intro operation found
  refine ⟨?_, fun hdir => ?_⟩
  · rintro rfl
    rfl
  have hquery := Directory.find_only dir name .file
  have hmap := pathMap_of_isQuery hv hquery
  have hsetting := setting_run (hquery.mono fun _ hc => hc.not_mounts) v
  obtain ⟨before, hbefore, hanswers⟩ := Program.exists_answers_run backend
    (Directory.find dir name .file) v
  obtain ⟨v₁, hfind⟩ : ∃ v₁, (Directory.find dir name .file).run backend v = (found, v₁) :=
    ⟨_, rfl⟩
  rw [hfind] at hmap hsetting hbefore hanswers
  obtain ⟨hdistinct, hmatches⟩ := isMatch_of_find hdir hfind
  have hmounted₁ : v₁.mounted = true :=
    (congrArg (fun setting => setting.2.1) hsetting).trans hmounted
  obtain ⟨removed, answer, events, v', hrun, hreports, hmakes, hanswers', hfront⟩ :=
    exists_removesFront config hmounted₁ hdir hdistinct fun entry hentry =>
      (hmatches entry hentry).file hslash
  have hoperation := Directory.run_deleteMatching hdir name config
  refine ⟨removed, answer, before ++ events, v', ?_, ?_, ?_, hanswers.append hanswers',
    hfront.behind (unlinks_of_isQuery (hquery.makes hbefore)) hmap hsetting⟩
  · rw [runOn, hoperation, Program.run_bind, hfind]
    exact hrun
  · rw [← Nat.zero_add removed.length]
    exact hreports.imp_right fun h =>
      ⟨h.1, h.2.1, (Config.maxAbsPathLength_eq_error_iff.1 h.2.2).1⟩
  · rw [Makes, hoperation]
    exact (hbefore.bind _).append hmakes

/-- The second of three removals fails: one file is gone, and the third is not looked at. -/
theorem deleteMatching_removesFront_second :
    letI : Allocator := .upTo 1024 16
    let v := ((((newMounted "/lfs").insertFile "/lfs/a" [1]).insertFile "/lfs/b" [2]).insertFile
      "/lfs/c" [3]).setFaults { failUnlinkAt := some 2 }
    let operation := Directory.deleteMatching "/lfs" "" {}
    ∃ events v', runOn backend operation v = (.ok 1, v') ∧ operation.Makes events (.ok 1) ∧
      backend.Answers v events v' ∧
      (∃ e, unlinks events = [("/lfs/a", .ok ()), ("/lfs/b", .error e)]) ∧
      v'.pathMap = v.pathMap.without ["/lfs/a"] := by
  intro v operation
  let _ : Allocator := .upTo 1024 16
  obtain ⟨removed, answer, events, v', hrun, hcount, hmakes, hanswers, hfront⟩ :=
    (@deleteMatching_removesFront v "/lfs" _ rfl rfl (by decide) "" {}).2 (by decide)
  have hone : (runOn backend operation v).1 = .ok 1 := by decide +kernel
  obtain rfl : answer = .ok 1 := (congrArg Prod.fst hrun).symm.trans hone
  obtain ⟨first, rfl⟩ : ∃ first, removed = [first] := by
    rcases hcount with hcount | ⟨hnever, -⟩
    · exact List.length_eq_one_iff.1 (Except.ok.inj hcount).symm
    · cases hnever
  obtain ⟨rest, attempt, hfound, hunlinks, hends⟩ := hfront.front
  have hthree : ((Directory.find "/lfs" "" .file).run backend v).1 =
      [.ofFile "a" 1, .ofFile "b" 1, .ofFile "c" 1] := by decide +kernel
  rw [hthree] at hfound
  obtain ⟨rfl, rfl⟩ := List.cons.inj hfound
  refine ⟨events, v', hrun, hmakes, hanswers, ?_, hfront.pathMap⟩
  cases hends with
  | unresolved e h =>
    have hresolve : Path.resolve "/lfs" "b" {} = .ok "/lfs/b" := by decide
    cases hresolve.symm.trans h
  | refused e h =>
    obtain rfl := Path.eq_of_resolve h
    exact ⟨e, hunlinks⟩

end MemoryVolume
end FlashVolume

import FlashVolume.Proofs.Memory.Deleting
import FlashVolume.Proofs.Memory.Iteration
import FlashVolume.Proofs.Memory.Presentation
import FlashVolume.Proofs.Memory.Requests
/-!
# What a directory shows of what is in it

The backend in memory of section 10.2 of the specification: `open`, `readdir` and `unlink`.

Three parts of a volume say what is below a directory, each in its own words. Creating an entry asks
for the directory that is its parent; reading a directory looks for a name behind the directory and
a separator, which it does not add to a path that ends in one; removing a directory looks for paths
behind the directory and a separator, which it does add.

| path | created below | shown by | in the way of the removal of |
| --- | --- | --- | --- |
| `d/x` | `d` | `d`, and `d/` if there is such a directory | `d` |
| `d/` | `d` | none | `d` |
| `d//x` | `d/` | none | `d` and `d/` |

They agree on directories and files whose path has no empty segment. So a directory that shows an
entry is not removed, unless its path ends in a separator (`refusesRemoval_of_listed`): then what it
shows does not count, and even the root can go. And a file that is written is shown by its parent if
and only if its path is a directory, one separator and a name (`listed_of_written`).
-/

universe u

namespace FlashVolume

open Operation

namespace Path

/-- The path is a directory, one separator and a name. -/
def IsShown (path : String) : Prop :=
  ∃ dir name : List Char, path.toList = dir ++ '/' :: name ∧ '/' ∉ name ∧ name ≠ [] ∧
    dir.getLast? ≠ some '/'

variable {path : String} {dir name : List Char}

/-- The parent of a path with a separator is a path. -/
theorem parent_ne_empty (hsep : '/' ∈ path.toList) : parent path ≠ "" := by
  obtain ⟨dir, name, hname, hpath⟩ := (notMem_or_exists_append path.toList).resolve_left (· hsep)
  rw [parent, hpath, parentChars_append hname]
  split
  · decide
  · next hdir => simpa using hdir

/-- What the entries of the parent of a path start with. A separator at its end is not doubled. -/
theorem below_parent_of_toList (hname : '/' ∉ name) (hpath : path.toList = dir ++ '/' :: name) :
    (below (parent path)).toList = if dir.getLast? = some '/' then dir else dir ++ ['/'] := by
  by_cases hdir : dir = []
  · have hparent : parent path = "/" := by
      rw [parent, hpath, parentChars_append hname, if_pos hdir]
    rw [hparent, hdir]
    rfl
  · rw [parent_of_toList hname hpath hdir, below, String.toList_ofList]
    split
    · rw [String.toList_ofList]
    · rw [String.toList_append, String.toList_ofList]
      rfl

/-- There is one way to split a path at its last separator. -/
theorem isShown_iff_of_toList (hname : '/' ∉ name) (hpath : path.toList = dir ++ '/' :: name) :
    IsShown path ↔ name ≠ [] ∧ dir.getLast? ≠ some '/' := by
  constructor
  · rintro ⟨dir', name', hpath', hname', hne, hdir⟩
    obtain rfl : name' = name :=
      (fileName_of_toList hname' hpath').symm.trans (fileName_of_toList hname hpath)
    obtain rfl : dir' = dir := List.append_cancel_right (hpath'.symm.trans hpath)
    exact ⟨hne, hdir⟩
  · rintro ⟨hne, hdir⟩
    exact ⟨dir, name, hpath, hname, hne, hdir⟩

/-- **A name leads to the path if and only if the path is shown,** and it is the path's own. -/
theorem below_parent_append_iff (hsep : '/' ∈ path.toList) {s : String} (hs : s ≠ "")
    (hplain : '/' ∉ s.toList) :
    below (parent path) ++ s = path ↔ IsShown path ∧ s = fileName path := by
  obtain ⟨dir, name, hname, hpath⟩ := (notMem_or_exists_append path.toList).resolve_left (· hsep)
  have hs : s.toList ≠ [] := by simpa using hs
  rw [isShown_iff_of_toList hname hpath, ← String.toList_inj, ← String.toList_inj,
    fileName_of_toList hname hpath, String.toList_append, below_parent_of_toList hname hpath, hpath]
  by_cases hdir : dir.getLast? = some '/'
  · rw [if_pos hdir, List.append_cancel_left_eq]
    constructor
    · intro hsame
      rw [hsame] at hplain
      exact absurd List.mem_cons_self hplain
    · rintro ⟨⟨-, hother⟩, -⟩
      exact absurd hdir hother
  · rw [if_neg hdir, List.append_assoc, List.append_cancel_left_eq, List.singleton_append,
      List.cons.injEq]
    constructor
    · rintro ⟨-, rfl⟩
      exact ⟨⟨hs, hdir⟩, rfl⟩
    · rintro ⟨-, hsame⟩
      exact ⟨rfl, hsame⟩

end Path

/-- There is one sequence of entries that an open directory delivers. -/
theorem Backend.Delivers.unique {σ : Type u} {B : Backend σ} {inv inv' : σ → Prop} {dir : DirHandle}
    {entries entries' : List Entry} {s : σ} (h : B.Delivers inv dir entries s)
    (h' : B.Delivers inv' dir entries' s) : entries = entries' := by
  induction entries generalizing entries' s with
  | nil =>
    obtain ⟨s₁, hread, -⟩ := h
    cases entries' with
    | nil => rfl
    | cons entry' rest' =>
      obtain ⟨hend, s₂, hread', -⟩ := h'
      cases hread.symm.trans hread'
      cases hend
  | cons entry rest ih =>
    obtain ⟨hend, s₁, hread, -, hrest⟩ := h
    cases entries' with
    | nil =>
      obtain ⟨s₂, hread', -⟩ := h'
      cases hread.symm.trans hread'
      cases hend
    | cons entry' rest' =>
      obtain ⟨-, s₂, hread', -, hrest'⟩ := h'
      cases hread.symm.trans hread'
      rw [ih hrest hrest']

namespace MemoryVolume

variable {v : MemoryVolume}

/-! ### Removing a directory -/

/-- Opening the directory and reading it up to the end mark yields the entries. -/
def ReadsToEnd (v : MemoryVolume) (path : String) (entries : List Entry) : Prop :=
  ∃ dir v₁, backend.answer (.opendir path) v = (.ok dir, v₁) ∧
    backend.Delivers (fun _ => True) dir entries v₁

/-- The call and the operation that remove an entry fail, and the map stays as it is. -/
def RefusesRemoval (v : MemoryVolume) (path : String) : Prop :=
  (∃ e v', backend.answer (.unlink path) v = (.error e, v') ∧ v'.pathMap = v.pathMap) ∧
    ∃ e v', runOn backend (File.delete path) v = (.error e, v') ∧ v'.pathMap = v.pathMap

/-- What is read of a directory are its children. -/
theorem readsToEnd_iff (hv : v.IsReady) {path : String} (hnode : v.pathMap path = some .directory)
    {entries : List Entry} :
    v.ReadsToEnd path entries ↔ entries = (v.children path).map Prod.snd := by
  obtain ⟨dir, v₁, hopen, hdelivers⟩ := (serves_children v hnode).opendir v ⟨hv, rfl⟩
  constructor
  · rintro ⟨dir', v₁', hopen', hdelivers'⟩
    cases hopen.symm.trans hopen'
    exact hdelivers'.unique hdelivers
  · rintro rfl
    exact ⟨dir, v₁, hopen, hdelivers.mono fun _ _ => trivial⟩

/-- **A directory is kept if and only if something is below it.** -/
theorem refusesRemoval_iff (hv : v.IsReady) {path : String}
    (hnode : v.pathMap path = some .directory) :
    v.RefusesRemoval path ↔ v.pathMap.Occupied path := by
  constructor
  · rintro ⟨⟨e, v', hunlink, -⟩, -⟩
    by_contra hfree
    obtain ⟨v₁, hunlinked, -⟩ := unlink_free hv hnode fun _ => hfree
    cases hunlink.symm.trans hunlinked
  · intro hoccupied
    obtain ⟨v', hunlink, -, hmap⟩ := unlink_occupied hv hnode hoccupied
    refine ⟨⟨_, v', hunlink, hmap⟩, ?_⟩
    by_cases hpath : path = ""
    · subst hpath
      have hrefused : runOn backend (File.delete "") v = (.error (.invalidInput "empty path"), v) :=
        rfl
      exact ⟨_, v, hrefused, rfl⟩
    · refine ⟨.storage (.io (.bare .directoryNotEmpty)), v', ?_, hmap⟩
      rw [runOn_delete hpath, hunlink]
      rfl

/-- A child is below its directory, if that is not written with a separator at its end. -/
theorem occupied_of_isChild {m : PathMap} {path : String} {entry : Entry}
    (h : m.IsChild path entry) (hpath : path.toList.getLast? ≠ some '/') : m.Occupied path := by
  obtain ⟨-, -, node, hnode, -⟩ := h
  rw [Path.below_of_not_separator hpath] at hnode
  exact ⟨_, ⟨entry.name.toList, String.toList_append.symm⟩, hnode ▸ Option.some_ne_none node⟩

/-- **A directory that shows an entry is kept,** by `unlink` and by `delete`, unless its path ends
in a separator and nothing is behind one more. -/
theorem refusesRemoval_of_listed (hmounted : v.mounted = true) (hfaults : v.faults = {})
    {path : String} (hnode : v.pathMap path = some .directory) {entries : List Entry}
    (hread : v.ReadsToEnd path entries) (hsome : entries ≠ []) :
    v.RefusesRemoval path ↔ path.toList.getLast? ≠ some '/' ∨ v.pathMap.Occupied path := by
  have hv : v.IsReady := ⟨hmounted, hfaults⟩
  rw [refusesRemoval_iff hv hnode, or_iff_right_of_imp]
  intro hpath
  obtain rfl := (readsToEnd_iff hv hnode).1 hread
  obtain ⟨entry, hentry⟩ := List.exists_mem_of_ne_nil _ hsome
  exact occupied_of_isChild (((isListing_children v path).mem_iff entry).1 hentry) hpath

/-- A directory with a file in a directory below it. -/
theorem refusesRemoval_of_listed_nested :
    let v := (newMounted "/lfs").insertFile "/lfs/d/f" [1]
    v.mounted = true ∧ v.faults = {} ∧ v.pathMap "/lfs" = some .directory ∧
      v.ReadsToEnd "/lfs" [.ofDirectory "d"] ∧ v.RefusesRemoval "/lfs" := by
  intro v
  have hnode : v.pathMap "/lfs" = some .directory := by decide
  have hread : v.ReadsToEnd "/lfs" [.ofDirectory "d"] :=
    (readsToEnd_iff ⟨rfl, rfl⟩ hnode).2 (by decide)
  exact ⟨rfl, rfl, hnode, hread,
    (refusesRemoval_of_listed rfl rfl hnode hread (by decide)).2 (.inl (by decide))⟩

/-- **The root shows the mount point, and is removed all the same.**  So is a directory `/lfs/`,
which is another one than `/lfs` and shows what that shows. -/
theorem not_refusesRemoval_of_listed :
    let v := newMounted "/lfs"
    let w := (backend.answer (.mkdir "/lfs/") (v.insertFile "/lfs/a" [1])).2
    (v.pathMap "/" = some .directory ∧ v.ReadsToEnd "/" [.ofDirectory "lfs"] ∧
      (backend.answer (.unlink "/") v).1 = .ok () ∧
      (runOn backend (File.delete "/") v).1 = .ok () ∧
      (backend.answer (.unlink "/") v).2.pathMap "/" = none ∧ ¬v.RefusesRemoval "/") ∧
    w.pathMap "/lfs/" = some .directory ∧ w.ReadsToEnd "/lfs/" [.ofFile "a" 1] ∧
      ¬w.RefusesRemoval "/lfs/" := by
  intro v w
  have hv : v.IsReady := ⟨rfl, rfl⟩
  have hw : w.IsReady := ⟨by decide, by decide⟩
  have hroot : v.pathMap "/" = some .directory := by decide
  have hdir : w.pathMap "/lfs/" = some .directory := by decide
  refine ⟨⟨hroot, (readsToEnd_iff hv hroot).2 (by decide), by decide, by decide, by decide, ?_⟩,
    hdir, (readsToEnd_iff hw hdir).2 (by decide), ?_⟩
  · rw [refusesRemoval_iff hv hroot, ← isOccupied_iff]
    decide
  · rw [refusesRemoval_iff hw hdir, ← isOccupied_iff]
    decide

/-! ### Writing a file -/

/-- The entries of a listing that are at a path. -/
def entriesAt (dir path : String) (entries : List Entry) : List Entry :=
  entries.filter fun entry => Path.below dir ++ entry.name = path

/-- An entry at the path is the only one. -/
theorem entriesAt_eq_singleton {dir path : String} {entry : Entry}
    (hentry : v.pathMap.IsChild dir entry) (hpath : Path.below dir ++ entry.name = path) :
    entriesAt dir path ((v.children dir).map Prod.snd) = [entry] := by
  have hlisting := isListing_children v dir
  have hnodup : ((v.children dir).map Prod.snd).Nodup := by
    refine hlisting.increasing.imp ?_
    rintro a b hless rfl
    exact List.lt_irrefl _ hless
  refine List.perm_singleton.1 ((List.perm_ext_iff_of_nodup (hnodup.filter _)
    (List.nodup_singleton entry)).2 fun other => ?_)
  rw [List.mem_filter, hlisting.mem_iff, decide_eq_true_iff, List.mem_singleton]
  constructor
  · rintro ⟨hother, hsame⟩
    have hname : other.name = entry.name := by
      rwa [← hpath, String.append_right_inj] at hsame
    exact hother.eq_of_name hentry hname
  · rintro rfl
    exact ⟨hentry, hpath⟩

/-- A path that is no child is not listed. -/
theorem entriesAt_eq_nil {dir path : String}
    (h : ∀ entry, v.pathMap.IsChild dir entry → Path.below dir ++ entry.name ≠ path) :
    entriesAt dir path ((v.children dir).map Prod.snd) = [] := by
  rw [entriesAt, List.filter_eq_nil_iff]
  intro entry hentry
  rw [decide_eq_true_iff]
  exact h entry (((isListing_children v dir).mem_iff entry).1 hentry)

/-- The listing of a directory changes nothing, and these of its entries are at the path. -/
def ListsAt (v : MemoryVolume) (dir path : String) (shown : List Entry) : Prop :=
  ∃ entries v', runOn backend (Directory.list dir) v = (.ok entries, v') ∧ v'.nodes = v.nodes ∧
    entriesAt dir path entries = shown

/-- A file that is shown is in the listing of its parent once, and one that is not shown is not. -/
theorem listsAt_parent (hv : v.IsReady) {path : String} (hsep : '/' ∈ path.toList)
    {contents : Bytes} (hfile : v.pathMap path = some (.file contents))
    (hdir : v.pathMap (Path.parent path) = some .directory) :
    (Path.IsShown path →
      v.ListsAt (Path.parent path) path [.ofFile (Path.fileName path) contents.length]) ∧
    (¬Path.IsShown path → v.ListsAt (Path.parent path) path []) := by
  obtain ⟨v', hlist, hnodes⟩ := runOn_list hv (Path.parent_ne_empty hsep) hdir
  constructor
  · intro hshown
    obtain ⟨dir, name, hpath, hname, hne, -⟩ := id hshown
    have hname' := Path.fileName_of_toList hname hpath
    have hsome : Path.fileName path ≠ "" := by
      rwa [Ne, ← String.toList_eq_nil_iff, hname']
    have hplain : '/' ∉ (Path.fileName path).toList := by rwa [hname']
    have hbehind : Path.below (Path.parent path) ++ Path.fileName path = path :=
      (Path.below_parent_append_iff hsep hsome hplain).2 ⟨hshown, rfl⟩
    have hchild : v.pathMap.IsChild (Path.parent path)
        (.ofFile (Path.fileName path) contents.length) :=
      ⟨hsome, hplain, .file contents, (congrArg v.pathMap hbehind).trans hfile, rfl⟩
    exact ⟨_, v', hlist, hnodes, entriesAt_eq_singleton hchild hbehind⟩
  · intro hhidden
    refine ⟨_, v', hlist, hnodes, entriesAt_eq_nil ?_⟩
    rintro entry ⟨hsome, hplain, -⟩ hbehind
    exact hhidden ((Path.below_parent_append_iff hsep hsome hplain).1 hbehind).1

/-- What is not a directory is not listed. -/
theorem runOn_list_other (hv : v.IsReady) {path : String} (hpath : path ≠ "")
    (hnode : v.pathMap path ≠ some .directory) :
    ∃ e v', runOn backend (Directory.list path) v = (.error e, v') ∧ v'.pathMap = v.pathMap := by
  obtain ⟨e, v', hopen, -, hmap⟩ := opendir_other hv hnode
  refine ⟨.ofStorage e, v', ?_, hmap⟩
  have hsome : path.isEmpty = false := by simpa using hpath
  simp only [Directory.list, Directory.requireDirectory, Directory.collect, Directory.enumerate,
    runOn_bind, runOn_ofProgram, hsome, Bool.false_eq_true, if_false, runOn_pure, Program.run,
    hopen, runOn_throw]

/-- What it takes to write, and what that leaves: a file is at the path, and the parent is what it
was. -/
theorem exists_file_of_yields {v' : MemoryVolume} {path : String} {n : Nat} {p : Operation Nat}
    {change : Bytes → Bytes} {count : Nat}
    (hyields : v.Yields p ((v.pathMap.beforeWrite path).map fun _ => count)
      (v.pathMap.replace path change count).2)
    (hrun : runOn backend p v = (.ok n, v')) :
    v'.IsReady ∧ (∃ contents, v'.pathMap path = some (.file contents)) ∧
      (v'.pathMap (Path.parent path) = some .directory ↔
        v.pathMap (Path.parent path) = some .directory) ∧
      (v.pathMap path = none → v.pathMap (Path.parent path) = some .directory) := by
  obtain ⟨w, hrun', hready, hmap⟩ := hyields
  obtain ⟨hanswer, rfl⟩ := Prod.mk.inj (hrun.symm.trans hrun')
  cases hbefore : v.pathMap.beforeWrite path with
  | error e =>
    rw [hbefore] at hanswer
    cases hanswer
  | ok old =>
    have hafter : v'.pathMap = v.pathMap.update path (some (.file (change old))) := by
      rw [hmap, PathMap.replace_of_ok hbefore]
    have hold := PathMap.beforeWrite_eq_ok.1 hbefore
    rw [hafter, PathMap.update_self]
    refine ⟨hready, ⟨_, rfl⟩, ?_, ?_⟩
    · by_cases hself : Path.parent path = path
      · -- A path that is its own parent has been a file, and stays one.
        rw [hself, PathMap.update_self]
        rcases hold with hfile | ⟨hfree, hdir, -⟩
        · simp [hfile]
        · rw [hself, hfree] at hdir
          cases hdir
      · rw [PathMap.update, if_neg hself]
    · intro hfree
      rcases hold with hfile | ⟨-, hdir, -⟩
      · rw [hfree] at hfile
        cases hfile
      · exact hdir

/-- **A file that has been written is in the listing of its parent if and only if its path is
shown,** and then once, with the name that the path ends in and with its size. A parent that is not
a directory, which is that of a file that was there before, is not listed. -/
theorem listed_of_written (hmounted : v.mounted = true) (hfaults : v.faults = {}) {path : String}
    (hsep : '/' ∈ path.toList) (config : Config) {data : Bytes} {n : Nat} {v' : MemoryVolume}
    (hwrite : runOn backend (File.write path data config) v = (.ok n, v') ∨
      runOn backend (File.append path data) v = (.ok n, v')) :
    ∃ contents, v'.pathMap path = some (.file contents) ∧
      (v.pathMap (Path.parent path) = some .directory →
        (Path.IsShown path →
          v'.ListsAt (Path.parent path) path [.ofFile (Path.fileName path) contents.length]) ∧
        (¬Path.IsShown path → v'.ListsAt (Path.parent path) path [])) ∧
      (v.pathMap (Path.parent path) ≠ some .directory → v.pathMap path ≠ none ∧
        ∃ e v'', runOn backend (Directory.list (Path.parent path)) v' = (.error e, v'') ∧
          v''.pathMap = v'.pathMap) := by
  have hv : v.IsReady := ⟨hmounted, hfaults⟩
  have hpath : path ≠ "" := by
    rintro rfl
    simp at hsep
  have hleft : v'.IsReady ∧ (∃ contents, v'.pathMap path = some (.file contents)) ∧
      (v'.pathMap (Path.parent path) = some .directory ↔
        v.pathMap (Path.parent path) = some .directory) ∧
      (v.pathMap path = none → v.pathMap (Path.parent path) = some .directory) := by
    rcases hwrite with hrun | hrun
    · exact exists_file_of_yields (write_yields hv hpath config data) hrun
    · exact exists_file_of_yields (append_yields hv hpath data) hrun
  obtain ⟨hv', ⟨contents, hfile⟩, hparent, hholder⟩ := hleft
  refine ⟨contents, hfile, ?_, ?_⟩
  · intro hdir
    exact listsAt_parent hv' hsep hfile (hparent.2 hdir)
  · intro hother
    exact ⟨fun hfree => hother (hholder hfree),
      runOn_list_other hv' (Path.parent_ne_empty hsep) fun hdir => hother (hparent.1 hdir)⟩

/-- A file two levels below the mount point, made longer. -/
theorem listed_of_written_nested :
    let v := (newMounted "/lfs").insertFile "/lfs/d/f" [1]
    let v' := (runOn backend (File.append "/lfs/d/f" [2]) v).2
    v.mounted = true ∧ v.faults = {} ∧ '/' ∈ "/lfs/d/f".toList ∧
      runOn backend (File.append "/lfs/d/f" [2]) v = (.ok 1, v') ∧ Path.IsShown "/lfs/d/f" ∧
      v'.ListsAt "/lfs/d" "/lfs/d/f" [.ofFile "f" 2] := by
  intro v v'
  have hrun : runOn backend (File.append "/lfs/d/f" [2]) v = (.ok 1, v') :=
    Prod.ext (by decide) rfl
  have hshown : Path.IsShown "/lfs/d/f" :=
    ⟨"/lfs/d".toList, "f".toList, by decide, by decide, by decide, by decide⟩
  refine ⟨rfl, rfl, by decide, hrun, hshown, ?_⟩
  obtain ⟨contents, hfile, hlists, -⟩ :=
    listed_of_written rfl rfl (by decide) {} (.inr hrun)
  have hcontents : v'.pathMap "/lfs/d/f" = some (.file [1, 2]) := by decide
  obtain rfl : contents = [1, 2] := by simpa [hfile] using hcontents
  exact (hlists (by decide)).1 hshown

/-- **A file whose path ends in a separator is written, and is not listed.** -/
theorem not_listed_of_written :
    let v := newMounted "/lfs"
    let v' := (runOn backend (File.write "/lfs/" [1] {}) v).2
    v.mounted = true ∧ v.faults = {} ∧
      (runOn backend (File.write "/lfs/" [1] {}) v).1 = .ok 1 ∧
      v'.pathMap "/lfs/" = some (.file [1]) ∧ Path.parent "/lfs/" = "/lfs" ∧
      (runOn backend (Directory.list "/lfs") v').1 = .ok [] := by
  intro v v'
  have hlist : (runOn backend (Directory.list "/lfs") v').1 = .ok [] := by
    have hnode : v'.pathMap "/lfs" = some .directory := by decide
    obtain ⟨w, hrun, -⟩ := runOn_list ⟨by decide, by decide⟩ (by decide) hnode
    have hnone : v'.children "/lfs" = [] := by decide
    rw [hrun, hnone]
    rfl
  exact ⟨rfl, rfl, by decide, by decide, by decide, hlist⟩

end MemoryVolume
end FlashVolume

import FlashVolume.Proofs.Memory.Calls
import FlashVolume.Proofs.Storage.Footprint
/-!
# What a call does to the map

A call on a volume in memory creates an entry at a free path, gives a file new contents, removes an
entry, or leaves the map as it is. `Change` says so once, with the condition under which each
happens; faults make a call do less, but nothing else. Only the fault that removes an entry behind
a call's back is left out, and a volume without it is `Undisturbed`.
-/

namespace FlashVolume

namespace PathMap

/-- A change of the map that a call can make. -/
inductive Change {α : Type} (c : Call α) (m : PathMap) : PathMap → Prop where
  | same : Change c m m
  /-- An empty file or a directory, at a free path whose parent is a directory. -/
  | create (path : String) (node : Node) (hcall : c.Creates path) (hfree : m path = none)
      (hparent : m (Path.parent path) = some .directory)
      (hnode : node = .file [] ∨ node = .directory) : Change c m (m.update path (some node))
  | alter (path : String) (old new : Bytes) (hcall : c.Alters)
      (hfile : m path = some (.file old)) : Change c m (m.update path (some (.file new)))
  /-- A file, or a directory with nothing below it. -/
  | remove (path : String) (node : Node) (hcall : c.Removes path) (hnode : m path = some node)
      (hempty : node = .directory → ¬m.Occupied path) : Change c m (m.update path none)

/-- A query changes nothing. -/
theorem Change.eq_of_isQuery {α : Type} {c : Call α} {m m' : PathMap} (h : Change c m m')
    (hc : c.IsQuery) : m' = m := by
  cases h with
  | same => rfl
  | create path node hcall => exact absurd hcall (hc.not_creates path)
  | alter path old new hcall => exact absurd hcall hc.not_alters
  | remove path node hcall => exact absurd hcall (hc.builds path)

/-- A directory is there before, or it has been created in one that is. -/
theorem Change.directory {α : Type} {c : Call α} {m m' : PathMap} (h : Change c m m')
    {path : String} (hpath : m' path = some .directory) :
    m path = some .directory ∨ c.Creates path ∧ m (Path.parent path) = some .directory := by
  cases h with
  | same => exact .inl hpath
  | create created node hcall hfree hparent hnode =>
    by_cases hp : path = created
    · exact .inr (hp ▸ ⟨hcall, hparent⟩)
    · exact .inl (by rwa [update, if_neg hp] at hpath)
  | alter altered old new hcall hfile =>
    rw [update] at hpath
    split at hpath
    · cases hpath
    · exact .inl hpath
  | remove removed node hcall hnode hempty =>
    rw [update] at hpath
    split at hpath
    · cases hpath
    · exact .inl hpath

end PathMap

namespace MemoryVolume

/-- No entry is removed while a directory is being opened. -/
def Undisturbed (v : MemoryVolume) : Prop :=
  v.faults.removeOnOpendir = none

/-- Calls do not switch the fault on. -/
theorem Undisturbed.answer {v : MemoryVolume} (h : v.Undisturbed) {α : Type} (c : Call α) :
    (backend.answer c v).2.Undisturbed := by
  -- Only `mount` touches the faults, and it counts down another one.
  cases c <;>
    simp only [backend, MemoryVolume.answer, mount, statvfs, MemoryVolume.open, MemoryVolume.read,
      MemoryVolume.write, MemoryVolume.seek, MemoryVolume.truncate, close, MemoryVolume.stat,
      opendir, readdir, closedir, mkdir, unlink, whenMounted]
  all_goals
    repeat' split
    all_goals exact h

variable {v : MemoryVolume}

/-- A path whose parent is no directory is refused. -/
theorem parent_of_checkParent {path : String} (h : v.checkParent path = .ok ()) :
    v.pathMap (Path.parent path) = some .directory := by
  rw [checkParent] at h
  split at h
  · assumption
  · cases h
  · cases h

/-- A call whose outcome has one more entry, or another one, in its nodes. -/
theorem change_insert {α : Type} {c : Call α} {v' : MemoryVolume} {path : String} {node : Node}
    (hnodes : v'.nodes = v.nodes.insert path node)
    (h : v.pathMap.Change c (v.pathMap.update path (some node))) :
    v.pathMap.Change c v'.pathMap := by
  rw [pathMap_insert hnodes]
  exact h

/-- A call whose outcome has one entry less in its nodes. -/
theorem change_erase {α : Type} {c : Call α} {v' : MemoryVolume} {path : String}
    (hnodes : v'.nodes = v.nodes.erase path)
    (h : v.pathMap.Change c (v.pathMap.update path none)) : v.pathMap.Change c v'.pathMap := by
  rw [pathMap_erase hnodes]
  exact h

/-- Opening creates at most the file at its path. -/
theorem open_change (path : String) (mode : OpenMode) :
    v.pathMap.Change (.open path mode) (backend.answer (.open path mode) v).2.pathMap := by
  simp only [backend, answer, MemoryVolume.open, whenMounted]
  split
  · split
    · exact .same
    · exact .same
    · next hfree =>
      split
      · next hmode =>
        split
        · exact .same
        · next hparent =>
          refine change_insert rfl ?_
          exact .create path _ ⟨rfl, hmode⟩ hfree (parent_of_checkParent hparent) (.inl rfl)
      · exact .same
  · exact .same

/-- Making a directory changes at most its own path. -/
theorem mkdir_change (path : String) :
    v.pathMap.Change (.mkdir path) (backend.answer (.mkdir path) v).2.pathMap := by
  simp only [backend, answer, mkdir, whenMounted]
  split
  · split
    · exact .same
    · next hfree =>
      have hfree : v.nodes[path]? = none := by
        rw [← Option.not_isSome_iff_eq_none, ← Std.TreeMap.contains_eq_isSome_getElem?]
        exact hfree
      split
      · exact .same
      · next hparent =>
        refine change_insert rfl ?_
        exact .create path _ rfl hfree (parent_of_checkParent hparent) (.inr rfl)
  · exact .same

/-- Writing changes at most the file that is open. -/
theorem write_change (file : FileHandle) (data : Bytes) :
    v.pathMap.Change (.write file data) (backend.answer (.write file data) v).2.pathMap := by
  simp only [backend, answer, MemoryVolume.write]
  split
  · exact .same
  · next f hf =>
    split
    · exact .same
    · split
      · exact .same
      · next old hold =>
        refine change_insert rfl ?_
        exact .alter f.path old _ trivial (contents?_eq_some.1 hold)

/-- Truncating changes at most the file that is open. -/
theorem truncate_change (file : FileHandle) (length : Nat) :
    v.pathMap.Change (.truncate file length)
      (backend.answer (.truncate file length) v).2.pathMap := by
  simp only [backend, answer, MemoryVolume.truncate]
  split
  · exact .same
  · next f hf =>
    split
    · exact .same
    · next old hold =>
      refine change_insert rfl ?_
      exact .alter f.path old _ trivial (contents?_eq_some.1 hold)

/-- Removing changes at most its own path. -/
theorem unlink_change (path : String) :
    v.pathMap.Change (.unlink path) (backend.answer (.unlink path) v).2.pathMap := by
  simp only [backend, answer, unlink, whenMounted]
  split
  · split
    · exact .same
    · split
      · exact .same
      · next hnode =>
        split
        · exact .same
        · next hempty =>
          refine change_erase rfl ?_
          exact .remove path _ rfl hnode fun _ => mt (isOccupied_iff v path).2 hempty
      · next data hnode =>
        refine change_erase rfl ?_
        refine .remove path _ rfl hnode ?_
        intro hdir
        cases hdir
  · exact .same

/-- Opening a directory changes nothing, when nothing is removed behind its back. -/
theorem opendir_change (hv : v.Undisturbed) (path : String) :
    v.pathMap.Change (.opendir path) (backend.answer (.opendir path) v).2.pathMap := by
  have hnodes : v.beforeOpendir.nodes = v.nodes := by
    simp only [beforeOpendir, show v.faults.removeOnOpendir = none from hv]
  have hmap : v.beforeOpendir.pathMap = v.pathMap := by
    funext p
    exact congrArg (fun nodes : Std.TreeMap String Node => nodes[p]?) hnodes
  simp only [backend, answer, opendir, whenMounted]
  repeat' split
  · exact hmap ▸ .same
  · exact hmap ▸ .same
  · exact hmap ▸ .same
  · exact .same

/-- What a call does to the map, if it opens no directory. -/
theorem answer_change_of_ne {α : Type} {c : Call α} (hc : c.name ≠ .opendir) :
    v.pathMap.Change c (backend.answer c v).2.pathMap := by
  cases c with
  | «open» path mode => exact open_change path mode
  | write file data => exact write_change file data
  | truncate file length => exact truncate_change file length
  | opendir path => exact absurd rfl hc
  | mkdir path => exact mkdir_change path
  | unlink path => exact unlink_change path
  | _ =>
    -- The other calls do not touch the nodes.
    simp only [backend, answer, mount, statvfs, MemoryVolume.read, MemoryVolume.seek, close,
      MemoryVolume.stat, readdir, closedir, whenMounted]
    repeat' split
    all_goals exact .same

/-- **What a call does to the map.** -/
theorem answer_change (hv : v.Undisturbed) {α : Type} (c : Call α) :
    v.pathMap.Change c (backend.answer c v).2.pathMap := by
  cases c with
  | opendir path => exact opendir_change hv path
  | _ => exact answer_change_of_ne nofun

/-- A directory that is still there was there before. -/
theorem directory_of_beforeOpendir {path : String}
    (h : v.beforeOpendir.pathMap path = some .directory) : v.pathMap path = some .directory := by
  simp only [pathMap, beforeOpendir] at h ⊢
  split at h
  · split at h
    · rw [Std.TreeMap.getElem?_erase] at h
      split at h
      · cases h
      · exact h
    · exact h
  · exact h

/-- **Directories are created by the calls that say so,** also while a fault removes entries. -/
theorem directory_of_answer {α : Type} {c : Call α} {path : String}
    (h : (backend.answer c v).2.pathMap path = some .directory) :
    v.pathMap path = some .directory ∨
      c.Creates path ∧ v.pathMap (Path.parent path) = some .directory := by
  by_cases hc : c.name = .opendir
  · left
    cases c with
    | opendir dir =>
      simp only [backend, answer, opendir, whenMounted] at h
      repeat' split at h
      · exact directory_of_beforeOpendir h
      · exact directory_of_beforeOpendir h
      · exact directory_of_beforeOpendir h
      · exact h
    | _ => cases hc
  · exact (answer_change_of_ne hc).directory h

end MemoryVolume
end FlashVolume

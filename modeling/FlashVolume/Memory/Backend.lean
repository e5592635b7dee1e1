import FlashVolume.Memory.Calls
import FlashVolume.Storage.Backend
/-!
# The memory backend

Section 10.2 of the specification: the backend in memory.

The calls of a volume in memory, as a backend. An enumeration ends because the entries behind the
last one delivered become fewer with each delivery.
-/

namespace FlashVolume
namespace MemoryVolume

/-- The answer to a call. -/
def answer {α : Type} : Call α → MemoryVolume → Except StorageError α × MemoryVolume
  | .mount, v => v.mount
  | .statvfs _, v => v.statvfs
  | .open path mode, v => v.open path mode
  | .read file length, v => v.read file length
  | .write file data, v => v.write file data
  | .seek file offset, v => v.seek file offset
  | .truncate file length, v => v.truncate file length
  | .close file, v => v.close file
  | .stat path, v => v.stat path
  | .opendir path, v => v.opendir path
  | .readdir dir, v => v.readdir dir
  | .closedir dir, v => v.closedir dir
  | .mkdir path, v => v.mkdir path
  | .unlink path, v => v.unlink path

/-- The number of entries that an open directory has yet to deliver. -/
def entriesLeft (dir : DirHandle) (v : MemoryVolume) : Nat :=
  match v.directories.get? dir.index with
  | some d => (v.childrenAfter d).length
  | none => 0

/-- The entries left behind one that was left are those of the entries left that come behind it. -/
theorem childrenAfter_some {v : MemoryVolume} {d : OpenDirectory} {path : String}
    (h : isAfter d.last path) :
    v.childrenAfter { d with last := some path } =
      (v.childrenAfter d).filter fun child => isAfter (some path) child.1 := by
  rw [childrenAfter, childrenAfter, List.filter_filter]
  refine List.filter_congr fun child _ => ?_
  cases hc : isAfter (some path) child.1 with
  | false => rfl
  | true => rw [isAfter_trans h hc, Bool.and_self]

/-- Behind the first of the entries that are left, fewer are left. -/
theorem childrenAfter_length_lt {v : MemoryVolume} {d : OpenDirectory} {path : String}
    {entry : Entry} {rest : List (String × Entry)} (h : v.childrenAfter d = (path, entry) :: rest) :
    (v.childrenAfter { d with last := some path }).length < (v.childrenAfter d).length := by
  have hmem : (path, entry) ∈ v.childrenAfter d := by rw [h]; exact List.mem_cons_self
  have hafter : isAfter d.last path := (List.mem_filter.1 hmem).2
  rw [childrenAfter_some hafter, List.length_filter_lt_length_iff_exists]
  exact ⟨_, hmem, by rw [isAfter_irrefl]; decide⟩

/-- A volume in memory, as a backend. -/
def backend : Backend MemoryVolume where
  answer := answer
  entriesLeft := entriesLeft
  entriesLeft_lt := by
    intro dir v v' entry h hend
    simp only [answer, readdir] at h
    split at h
    · cases h
    · split at h
      · cases h
      · rename_i d hd
        split at h
        · simp only [Prod.mk.injEq, Except.ok.injEq] at h
          simp [← h.1, Entry.endMark, Entry.isEnd, Entry.ofFile] at hend
        · rename_i path e rest hrest
          simp only [Prod.mk.injEq, Except.ok.injEq] at h
          obtain ⟨-, rfl⟩ := h
          have hd' : v.directories.get? dir.index = some d := hd
          have hrest' : v.childrenAfter d = (path, e) :: rest := hrest
          have := childrenAfter_length_lt hrest'
          simp only [entriesLeft, hd', beforeReaddir, Handles.get?_set_self hd']
          exact this

end MemoryVolume
end FlashVolume

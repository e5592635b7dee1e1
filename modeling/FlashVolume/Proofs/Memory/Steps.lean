import FlashVolume.Config.Basic
import FlashVolume.Memory.Backend
import FlashVolume.Proofs.Path.Parent
import FlashVolume.Proofs.Request
import FlashVolume.Proofs.Storage.Footprint
import FlashVolume.Proofs.Storage.Running
/-!
# Runs of a volume

A run is a sequence of steps in any order: single storage calls, through whatever handles, whole
operations, mounting through a gate, and switching faults on and off. `Step.IsAllowed` keeps the
paths that a step names at or below the mount point; a name in a directory is not a path.
-/

namespace FlashVolume

namespace Path

/-- The path is `top` or below it. -/
def IsWithin (top path : String) : Prop :=
  path = top ∨ (top ++ "/").toList <+: path.toList

instance (top path : String) : Decidable (IsWithin top path) :=
  inferInstanceAs (Decidable (_ ∨ _))

end Path

namespace Call

/-- The path that the call names, if it names one. -/
def path? {α : Type} : Call α → Option String
  | .statvfs path => path
  | .open path _ => path
  | .stat path => path
  | .opendir path => path
  | .mkdir path => path
  | .unlink path => path
  | _ => none

/-- What is removed is named. -/
theorem path?_of_removes {α : Type} {c : Call α} {path : String} (h : c.Removes path) :
    c.path? = some path := by
  cases c with
  | unlink p => exact congrArg some h
  | _ => exact h.elim

end Call

/-- What can be done to a volume. -/
inductive Step : Type 1 where
  | call {α : Type} (c : Call α)
  /-- An operation, on a machine that gives it memory or refuses it. -/
  | request (machine : Allocator) (config : Config) (request : Request)
  /-- Mounting through a gate that is in some state. -/
  | gate (state : MountState) (mountPoint : String)
  | faults (faults : Faults)

namespace Step

/-- The volume after a step. -/
def apply : Step → MemoryVolume → MemoryVolume
  | call c, v => (MemoryVolume.backend.answer c v).2
  | request _ config r, v => (Operation.runOn MemoryVolume.backend (r.operation config) v).2
  | gate state mountPoint, v =>
    (((MountState.mount mountPoint).run state).run MemoryVolume.backend v).2
  | faults f, v => v.setFaults f

/-- The step names no path outside, and it does not let entries disappear behind the back of the
calls. -/
def IsAllowed (mountPoint : String) : Step → Prop
  | call c => ∀ path, c.path? = some path → Path.IsWithin mountPoint path
  | request _ _ r => Path.IsWithin mountPoint r.path
  | gate _ path => Path.IsWithin mountPoint path
  | faults f => f.removeOnOpendir = none

end Step

/-- The volume after some steps. -/
def MemoryVolume.after (v : MemoryVolume) (steps : List Step) : MemoryVolume :=
  steps.foldl (fun v step => step.apply v) v

/-! ### The mount point -/

namespace Config

/-- A mount point that is accepted is a separator and a name. -/
theorem mountPoint_of_validate {config : Config} (h : config.validate = .ok ()) :
    ∃ name, name ≠ [] ∧ '/' ∉ name ∧ config.mountPoint.toList = '/' :: name := by
  have hdefect := defect?_of_validate h
  rw [defect?] at hdefect
  split at hdefect
  · cases hdefect
  · next hstart =>
    split at hdefect
    · cases hdefect
    · next hsegment =>
      rw [not_or, Decidable.not_not] at hstart
      cases hmount : config.mountPoint.toList with
      | nil => simp [hmount] at hstart
      | cons c name =>
        rw [hmount] at hstart hsegment
        obtain rfl : c = '/' := by simpa using hstart.1
        refine ⟨name, ?_, hsegment, rfl⟩
        rintro rfl
        have hroot : config.mountPoint = "/" := String.toList_inj.1 hmount
        rw [hroot] at hstart
        exact hstart.2 (by decide)

variable {config : Config}

/-- The root holds the mount point. -/
theorem parent_mountPoint (h : config.validate = .ok ()) :
    Path.parent config.mountPoint = "/" := by
  obtain ⟨name, -, hname, hmount⟩ := mountPoint_of_validate h
  have hsplit : config.mountPoint.toList = [] ++ '/' :: name := hmount
  rw [Path.parent, hsplit, Path.parentChars_append hname, if_pos rfl]

/-- A path at or below the mount point is not the root. -/
theorem ne_root_of_isWithin (h : config.validate = .ok ()) {path : String}
    (hpath : Path.IsWithin config.mountPoint path) : path ≠ "/" := by
  obtain ⟨name, hname, -, hmount⟩ := mountPoint_of_validate h
  have hlong : 1 < config.mountPoint.toList.length := by
    rw [hmount, List.length_cons]
    have := List.length_pos_iff.2 hname
    omega
  have hshort : "/".toList.length = 1 := rfl
  rintro rfl
  rcases hpath with heq | hbelow
  · rw [heq] at hshort
    omega
  · have hle := hbelow.length_le
    rw [String.toList_append, List.length_append] at hle
    omega

end Config
end FlashVolume

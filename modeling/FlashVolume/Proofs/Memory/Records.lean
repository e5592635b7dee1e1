import FlashVolume.Gate
import FlashVolume.Proofs.Discipline
import FlashVolume.Proofs.Memory.Steps
/-!
# The record of an open directory

How far an open directory has been read is in its record, and only its own reads move it. Other
calls go through other handles, and a handle that is given out while the directory is open is
another one. An operation is in order with its handles (`Program.Leads`), so it reads and closes no
directory but those that it has opened itself: it leaves the record as it is (`get?_run`).
-/

namespace FlashVolume

namespace Call

variable {α : Type} {dir : DirHandle}

/-- The call closes the directory. -/
def Closes (dir : DirHandle) : Call α → Prop
  | .closedir d => d = dir
  | _ => False

/-- The call neither reads the directory nor closes it. -/
def Spares (dir : DirHandle) : Call α → Prop
  | .readdir d => d ≠ dir
  | .closedir d => d ≠ dir
  | _ => True

end Call

namespace MemoryVolume

variable {α : Type} {v : MemoryVolume} {dir : DirHandle} {d : OpenDirectory}

/-- Handles with different numbers are different. -/
theorem index_ne {dir dir' : DirHandle} (h : dir' ≠ dir) : dir'.index ≠ dir.index :=
  fun heq => h (congrArg DirHandle.mk heq)

/-- **A call that spares the directory keeps its record.** -/
theorem get?_answer {c : Call α} (hc : c.Spares dir)
    (h : v.directories.get? dir.index = some d) :
    (backend.answer c v).2.directories.get? dir.index = some d := by
  cases c with
  | opendir path =>
    have hopened : ∀ d', ((v.directories.add d').get? dir.index) = some d := fun d' =>
      (Handles.get?_add_of_lt (Handles.lt_next_of_get? h)).trans h
    simp only [backend, answer, opendir, whenMounted]
    repeat' split
    · exact hopened _
    · exact h
    · exact h
    · exact h
  | readdir dir' =>
    simp only [backend, answer, readdir]
    repeat' split
    · exact h
    · exact h
    · exact h
    · exact (Handles.get?_set_of_ne (index_ne hc)).trans h
  | closedir dir' => exact (Handles.get?_close_of_ne (index_ne hc)).trans h
  | _ =>
    simp only [backend, answer, mount, statvfs, MemoryVolume.open, openAt, MemoryVolume.read,
      MemoryVolume.write, MemoryVolume.seek, MemoryVolume.truncate, close, MemoryVolume.stat, mkdir,
      unlink, whenMounted]
    repeat' split
    all_goals exact h

/-! ### Programs -/

variable {held mid final : Option OpenHandle}

/-- A call that is in order while the directory is not the handle that is held spares it. -/
theorem spares_of_after {c : Call α} {answer : Except StorageError α}
    (hheld : held ≠ some (.directory dir)) (h : Event.after held ⟨c, answer⟩ = some mid) :
    c.Spares dir := by
  have huse : ∀ {dir' after},
      Event.using? (.directory dir') after held = some mid → dir' ≠ dir := by
    rintro dir' after hused rfl
    rw [Event.using?, if_neg hheld] at hused
    cases hused
  cases c with
  | readdir dir' => exact huse h
  | closedir dir' => exact huse h
  | _ => trivial

/-- A directory is opened with the next handle, at its start. -/
theorem opendir_ok {path : String} {handle : DirHandle} {v' : MemoryVolume}
    (h : backend.answer (.opendir path) v = (.ok handle, v')) :
    handle.index = v.directories.next ∧ v'.directories.get? handle.index = some ⟨path, none⟩ := by
  simp only [backend, answer, opendir, whenMounted] at h
  split at h
  · split at h
    · cases h
      exact ⟨rfl, Handles.get?_add_next _ _⟩
    · cases h
    · cases h
  · cases h

/-- What is held behind a call is not the directory either: a new handle is another one. -/
theorem held_ne_of_after {c : Call α} (hheld : held ≠ some (.directory dir))
    (hrecord : v.directories.get? dir.index = some d)
    (h : Event.after held ⟨c, (backend.answer c v).1⟩ = some mid) :
    mid ≠ some (.directory dir) := by
  rcases Event.after_cases h with ⟨rfl, hopened, -⟩ | ⟨-, rfl⟩ | rfl
  · cases c with
    | opendir path =>
      rcases hanswer : backend.answer (.opendir path) v with ⟨e | handle, v'⟩
      · rw [hanswer] at h
        cases h
        cases hopened
      · rw [hanswer] at h
        cases h
        rintro ⟨⟩
        have hless := Handles.lt_next_of_get? hrecord
        rw [(opendir_ok hanswer).1] at hless
        exact Nat.lt_irrefl _ hless
    | «open» path mode =>
      rcases hanswer : backend.answer (.open path mode) v with ⟨e | file, v'⟩
      · rw [hanswer] at h
        cases h
        cases hopened
      · rw [hanswer] at h
        cases h
        nofun
    | _ => cases h <;> cases hopened
  · nofun
  · exact hheld

/-- **An operation keeps the record of a directory that it has not opened.** -/
theorem get?_run {p : Program α} (hp : p.Leads held final)
    (hheld : held ≠ some (.directory dir)) (h : v.directories.get? dir.index = some d) :
    (p.run backend v).2.directories.get? dir.index = some d := by
  induction p generalizing held v with
  | ret a => exact h
  | call c next ih =>
    obtain ⟨mid, hafter, hnext⟩ := hp.1 (backend.answer c v).1
    have hkept := get?_answer (spares_of_after hheld hafter) h
    exact ih _ hnext (held_ne_of_after hheld h hafter) hkept
  | scan dir' visit start next ih =>
    obtain ⟨rfl, hnext⟩ := hp
    have hother : dir' ≠ dir := fun heq => hheld (by rw [heq])
    have hscan : (backend.scan dir' visit start v).2.directories.get? dir.index = some d := by
      refine Program.scan_rel (R := fun v v' => v.directories.get? dir.index = some d →
        v'.directories.get? dir.index = some d) ?_ ?_ visit start v h
      · exact fun v₁ v₂ v₃ h₁ h₂ h => h₂ (h₁ h)
      · exact fun v h => get?_answer (c := .readdir dir') hother h
    exact ih _ _ (hnext _ _) hheld hscan

end MemoryVolume

/-! ### Steps -/

/-- Mounting through a gate opens nothing. -/
theorem MountState.mount_leads (mountPoint : String) (state : MountState) :
    ((MountState.mount mountPoint).run state).Leads none none := by
  obtain ⟨mounted⟩ := state
  cases mounted with
  | true => rfl
  | false =>
    refine ⟨?_, nofun⟩
    rintro (e | _)
    · exact ⟨none, rfl, rfl⟩
    · exact ⟨none, rfl, fun answer => ⟨none, rfl, rfl⟩, nofun⟩

/-- The step does not close the directory. -/
def Step.KeepsOpen (dir : DirHandle) : Step → Prop
  | call c => ¬c.Closes dir
  | _ => True

/-- **Between two reads of a directory its record stays as it is.** -/
theorem MemoryVolume.get?_apply {step : Step} {dir : DirHandle} {v : MemoryVolume}
    {d : OpenDirectory} (hopen : step.KeepsOpen dir) (hread : step ≠ .call (.readdir dir))
    (h : v.directories.get? dir.index = some d) :
    (step.apply v).directories.get? dir.index = some d := by
  cases step with
  | call c =>
    refine get?_answer ?_ h
    cases c with
    | readdir dir' =>
      rintro rfl
      exact hread rfl
    | closedir dir' => exact hopen
    | _ => trivial
  | request machine config request => exact get?_run (request.keeps_operation config) nofun h
  | gate state mountPoint => exact get?_run (MountState.mount_leads mountPoint state) nofun h
  | faults faults => exact h

end FlashVolume

import FlashVolume.Proofs.Footprints
import FlashVolume.Proofs.Host.Growth
import FlashVolume.Proofs.Mounting
import FlashVolume.Proofs.Refusal
/-!
# Before a volume is mounted

The glossary of the specification: a volume is mounted before anything else succeeds.

Whether a volume is mounted is asked by each call that names a path, and by none that names a
handle. So a volume that has not been mounted is safe because nothing is open on it: it has given
out no handle, since `open` and `opendir` name a path. That is the invariant, and all that can be
done keeps it, as long as no mount succeeds:

| | on a volume in memory | on one on the host |
| --- | --- | --- |
| a call that names a path | is refused | is refused |
| a call that names a handle | is refused, `close` and `closedir` find nothing to close | the same |
| a mount that fails | counts down the fault | may create directories on the way to the root |
| switching faults on | changes the faults | |

`Backend.Idles` are the states that such a volume can come to.
-/

universe u

namespace FlashVolume

/-! ### What can be done to a volume -/

/-- A storage call, an operation of the library, a command of the shell, or a mount through a gate
that is in some state. -/
inductive Deed : Type 1 where
  | call {α : Type} (c : Call α)
  | request (machine : Allocator) (config : Config) (request : Request)
  | command (machine : Allocator) (config : Config) (command : Command)
  | gate (state : MountState) (mountPoint : String)

namespace Deed

/-- The calls of a deed. -/
def program : Deed → Program Unit
  | call c => .call c fun _ => .ret ()
  | request _ config r => (r.operation config).run.bind fun _ => .ret ()
  | command _ config c => (Reply.ofCommand config c).bind fun _ => .ret ()
  | gate state mountPoint => ((MountState.mount mountPoint).run state).bind fun _ => .ret ()

/-- The deed is an attempt to mount. -/
def Mounts : Deed → Prop
  | call c => c.Mounts
  | gate _ _ => True
  | _ => False

/-- What is no attempt to mount, makes no call that is one. -/
theorem program_not_mounts (d : Deed) (h : ¬d.Mounts) : d.program.Only fun c => ¬c.Mounts := by
  cases d with
  | call c => exact ⟨h, fun _ => trivial⟩
  | request machine config r =>
    exact Program.Only.bind (r.operation_not_mounts config) fun _ => trivial
  | command machine config c => exact (Reply.ofCommand_not_mounts config c).bind fun _ => trivial
  | gate state mountPoint => exact absurd trivial h

end Deed

namespace Program

variable {σ : Type u} {B : Backend σ} {α : Type}

/-- Every mount that the program tries from the state fails. -/
def MountsFail (B : Backend σ) : Program α → σ → Prop
  | ret _, _ => True
  | call c next, s => (c.Mounts → ∃ e, (B.answer c s).1 = .error e) ∧
      (next (B.answer c s).1).MountsFail B (B.answer c s).2
  | scan dir visit start next, s =>
    (next (B.scan dir visit start s).1.1 (B.scan dir visit start s).1.2).MountsFail B
      (B.scan dir visit start s).2

/-- A program that mounts nothing has no mount that succeeds. -/
theorem MountsFail.of_not_mounts {p : Program α} (hp : p.Only fun c => ¬c.Mounts) (s : σ) :
    p.MountsFail B s := by
  induction p generalizing s with
  | ret a => trivial
  | call c next ih => exact ⟨fun hmounts => absurd hmounts hp.1, ih _ (hp.2 _) _⟩
  | scan dir visit start next ih => exact ih _ _ (hp.2 _ _) _

/-- What every call keeps that is no successful mount, the program keeps. -/
theorem MountsFail.run_rel {R : σ → σ → Prop} (hrefl : ∀ s, R s s)
    (htrans : ∀ s₁ s₂ s₃, R s₁ s₂ → R s₂ s₃ → R s₁ s₃)
    (hcall : ∀ {γ : Type} (c : Call γ) s, (c.Mounts → ∃ e, (B.answer c s).1 = .error e) →
      R s (B.answer c s).2) {p : Program α} {s : σ} (hp : p.MountsFail B s) :
    R s (p.run B s).2 := by
  induction p generalizing s with
  | ret a => exact hrefl s
  | call c next ih => exact htrans _ _ _ (hcall c s hp.1) (ih _ hp.2)
  | scan dir visit start next ih =>
    have hscan := scan_rel htrans (fun s => hcall (.readdir dir) s False.elim) visit start s
    exact htrans _ _ _ hscan (ih _ _ hp)

end Program

namespace Backend

variable {σ : Type u} {B : Backend σ} {change : σ → σ → Prop} {s s' : σ}

/-- The states that a volume can come to from `s` without a mount that succeeds; `change` is what
else can be done to it from outside. -/
inductive Idles (B : Backend σ) (change : σ → σ → Prop) (s : σ) : σ → Prop where
  | start : Idles B change s s
  | deed {s' : σ} (d : Deed) (before : Idles B change s s') (fails : d.program.MountsFail B s') :
      Idles B change s (d.program.run B s').2
  | change {s' s'' : σ} (before : Idles B change s s') (h : change s' s'') : Idles B change s s''

/-- All that is no attempt to mount can be done. -/
theorem Idles.of_not_mounts (before : B.Idles change s s') {d : Deed} (hd : ¬d.Mounts) :
    B.Idles change s (d.program.run B s').2 :=
  .deed d before (.of_not_mounts (d.program_not_mounts hd) s')

/-- **What each call keeps that is no successful mount, is kept before the volume is mounted.** -/
theorem Idles.rel {R : σ → σ → Prop} (h : B.Idles change s s') (hrefl : ∀ s, R s s)
    (htrans : ∀ s₁ s₂ s₃, R s₁ s₂ → R s₂ s₃ → R s₁ s₃)
    (hcall : ∀ {γ : Type} (c : Call γ) s, (c.Mounts → ∃ e, (B.answer c s).1 = .error e) →
      R s (B.answer c s).2) (hchange : ∀ s s', change s s' → R s s') : R s s' := by
  induction h with
  | start => exact hrefl s
  | deed d before fails ih => exact htrans _ _ _ ih (fails.run_rel hrefl htrans hcall)
  | change before h ih => exact htrans _ _ _ ih (hchange _ _ h)

/-- A volume that is not mounted refuses the calls that name a path, and so the operations and a
mount through a gate whose flag is down come to nothing. -/
structure Rests [Allocator] (B : Backend σ) (s : σ) : Prop where
  refuses : B.RefusesPaths s
  declines : B.Declines s
  gate : ∀ mountPoint, ((MountState.mount mountPoint).run ⟨false⟩).MountsFail B s →
    ∃ e, (((MountState.mount mountPoint).run ⟨false⟩).run B s).1 = (.error e, ⟨false⟩)

/-- What refuses every path rests. -/
theorem RefusesPaths.rests [Allocator] (h : B.RefusesPaths s) : B.Rests s where
  refuses := h
  declines := h.declines
  gate := by
    intro mountPoint hfails
    rw [MountState.run_mount_false] at hfails ⊢
    obtain ⟨e, he⟩ := hfails.1 trivial
    simp only [Program.run, he]
    exact ⟨_, rfl⟩

end Backend

/-! ### In memory -/

namespace MemoryVolume

variable {α : Type} {v : MemoryVolume}

/-- The volume is not mounted, and nothing is open on it. -/
structure IsIdle (v : MemoryVolume) : Prop where
  mounted : v.mounted = false
  files : v.files = {}
  directories : v.directories = {}

namespace IsIdle

/-- A new volume is idle. -/
theorem new (mountPoint : String) : (MemoryVolume.new mountPoint).IsIdle :=
  ⟨rfl, rfl, rfl⟩

/-- An idle volume has nothing mounted, so it refuses every path. -/
theorem refuses (hv : v.IsIdle) : backend.RefusesPaths v := by
  intro α c path hc
  have hrefused : ∀ answer : Answer α, v.whenMounted answer = (.error .notMounted, v) := by
    intro answer
    rw [whenMounted, hv.mounted]
    rfl
  cases c with
  | mount | read | write | seek | truncate | close | readdir | closedir => cases hc
  | _ => exact hrefused _

/-- **Every call leaves the volume idle and its entries as they are,** if it is no mount that
succeeds. -/
theorem answer (hv : v.IsIdle) (c : Call α)
    (hc : c.Mounts → ∃ e, (backend.answer c v).1 = .error e) :
    (backend.answer c v).2.IsIdle ∧ (backend.answer c v).2.nodes = v.nodes := by
  have hfile : ∀ i, v.files.get? i = none := by simp [hv.files]
  have hdirectory : ∀ i, v.directories.get? i = none := by simp [hv.directories]
  cases c with
  | mount =>
    obtain ⟨e, he⟩ := hc trivial
    simp only [backend, MemoryVolume.answer, mount] at he ⊢
    split at he
    · rename_i hfault
      rw [if_pos hfault]
      exact ⟨⟨hv.mounted, hv.files, hv.directories⟩, rfl⟩
    · cases he
  | read | write | seek | truncate =>
    simpa [backend, MemoryVolume.answer, MemoryVolume.read, MemoryVolume.write, MemoryVolume.seek,
      MemoryVolume.truncate, hfile] using hv
  | close file =>
    have hclosed : v.files.close file.index = {} := by rw [hv.files, Handles.close_empty]
    exact ⟨⟨hv.mounted, hclosed, hv.directories⟩, rfl⟩
  | closedir dir =>
    have hclosed : v.directories.close dir.index = {} := by
      rw [hv.directories, Handles.close_empty]
    exact ⟨⟨hv.mounted, hv.files, hclosed⟩, rfl⟩
  | readdir dir =>
    have hcounted : v.beforeReaddir.IsIdle := ⟨hv.mounted, hv.files, hv.directories⟩
    have hnone : v.beforeReaddir.directories.get? dir.index = none := hdirectory dir.index
    simp only [backend, MemoryVolume.answer, readdir, hnone]
    split
    · exact ⟨hcounted, rfl⟩
    · exact ⟨hcounted, rfl⟩
  | statvfs path | «open» path | stat path | opendir path | mkdir path | unlink path =>
    rw [hv.refuses _ path rfl]
    exact ⟨hv, rfl⟩

end IsIdle

/-- Faults are switched on or off. -/
def Faulted (v v' : MemoryVolume) : Prop :=
  ∃ faults, v' = v.setFaults faults

/-- **A volume in memory stays idle until it is mounted,** and its entries stay as they are. -/
theorem isIdle_of_idles {v₀ : MemoryVolume} (h : backend.Idles Faulted v₀ v) (hv : v₀.IsIdle) :
    v.IsIdle ∧ v.nodes = v₀.nodes := by
  have hfaulted : ∀ v v', Faulted v v' → Retains IsIdle nodes v v' := by
    rintro v v' ⟨faults, rfl⟩ hv
    exact ⟨⟨hv.mounted, hv.files, hv.directories⟩, rfl⟩
  exact h.rel .refl (fun _ _ _ => .trans) (fun c v hc hv => hv.answer c hc) hfaulted hv

end MemoryVolume

/-! ### On the host -/

namespace HostVolume

variable {α : Type} {v : HostVolume}

/-- The volume is not mounted, and nothing is open on it. -/
structure IsIdle (v : HostVolume) : Prop extends v.IsFresh where
  mounted : v.mounted = false

namespace IsIdle

/-- An idle volume has nothing mounted, so it refuses every path. -/
theorem refuses (hv : v.IsIdle) : backend.RefusesPaths v := by
  intro α c path hc
  have hrefused : ∀ call : HostPath → HostVolume → Answer α,
      v.onPath path call = (.error .notMounted, v) := by
    intro call
    rw [onPath, realPath, hv.mounted]
    rfl
  cases c with
  | mount | read | write | seek | truncate | close | readdir | closedir => cases hc
  | _ =>
    obtain rfl := Option.some.inj hc
    simp only [backend, HostVolume.answer, statvfs, HostVolume.open, stat, opendir, mkdir, unlink,
      hrefused]

/-- **Every call but a mount leaves the volume and its host as they are.** -/
theorem answer (hv : v.IsIdle) {c : Call α} (hc : ¬c.Mounts) : (backend.answer c v).2 = v := by
  have hfile : ∀ i, v.system.files.get? i = none := by simp [hv.files]
  have hdirectory : ∀ i, v.system.directories.get? i = none := by simp [hv.directories]
  cases c with
  | mount => exact absurd trivial hc
  | read | write | seek | truncate =>
    simp [backend, HostVolume.answer, onHost, HostSystem.readFile, HostSystem.writeFile,
      HostSystem.seekFile, HostSystem.truncateFile, hfile]
  | readdir dir =>
    simp [backend, HostVolume.answer, onHost, HostSystem.nextEntry, hdirectory]
  | close file =>
    have hclosed : v.system.files.close file.index = v.system.files := by
      rw [hv.files, Handles.close_empty]
    simp only [backend, HostVolume.answer, onHost, HostSystem.closeFile, hclosed]
  | closedir dir =>
    have hclosed : v.system.directories.close dir.index = v.system.directories := by
      rw [hv.directories, Handles.close_empty]
    simp only [backend, HostVolume.answer, onHost, HostSystem.closeDirectory, hclosed]
  | statvfs path | «open» path | stat path | opendir path | mkdir path | unlink path =>
    rw [hv.refuses _ path rfl]

end IsIdle

/-- A mount that fails can leave directories on the way to the root, and nothing else. -/
theorem mount_of_failed {e : StorageError} (he : (backend.answer .mount v).1 = .error e) :
    (backend.answer .mount v).2 =
      { v with system := (v.system.createDirectories v.root).2 } := by
  rcases hcreate : v.system.createDirectories v.root with ⟨result, system⟩
  simp only [backend, HostVolume.answer, HostVolume.mount, onHost, hcreate] at he ⊢
  cases result with
  | error e' => rfl
  | ok =>
    simp only [Except.mapError] at he ⊢
    split at he
    · cases he
    · rename_i hmissing
      rw [if_neg hmissing]

/-- What a volume that is not mounted can become: it is as before, but for directories on the way
to its root. -/
structure Waits (v v' : HostVolume) : Prop where
  isIdle : v'.IsIdle
  mountPoint : v'.mountPoint = v.mountPoint
  root : v'.root = v.root
  system : v.realm.Grows v.system v'.system

namespace Waits

/-- Nothing done is waiting. -/
theorem refl (hv : v.IsIdle) : v.Waits v :=
  ⟨hv, rfl, rfl, .refl v.system⟩

/-- Waiting twice is waiting. -/
theorem trans {v' v'' : HostVolume} (h : v.Waits v') (h' : v'.Waits v'') : v.Waits v'' where
  isIdle := h'.isIdle
  mountPoint := h'.mountPoint.trans h.mountPoint
  root := h'.root.trans h.root
  system := h.system.trans (h'.system.congr h.root h.system.workingDirectory)

end Waits

/-- A mount that fails leaves the volume waiting. -/
theorem IsIdle.waits_mount (hv : v.IsIdle) {e : StorageError}
    (he : (backend.answer .mount v).1 = .error e) : v.Waits (backend.answer .mount v).2 := by
  have hgrows : v.realm.Grows v.system (v.system.createDirectories v.root).2 :=
    Realm.grows_createDirectories (Realm.approaches_root v.realm) rfl
  rw [mount_of_failed he]
  exact ⟨⟨⟨hgrows.files.trans hv.files, hgrows.directories.trans hv.directories⟩, hv.mounted⟩,
    rfl, rfl, hgrows⟩

/-- **A volume on the host waits until it is mounted.** -/
theorem waits_of_idles {v₀ : HostVolume} (h : backend.Idles (fun _ _ => False) v₀ v)
    (hv : v₀.IsIdle) : v₀.Waits v := by
  have htrans : ∀ v₁ v₂ v₃ : HostVolume, (v₁.IsIdle → v₁.Waits v₂) → (v₂.IsIdle → v₂.Waits v₃) →
      v₁.IsIdle → v₁.Waits v₃ :=
    fun v₁ v₂ v₃ h h' hv => (h hv).trans (h' (h hv).isIdle)
  have hcall : ∀ {γ : Type} (c : Call γ) v, (c.Mounts → ∃ e, (backend.answer c v).1 = .error e) →
      v.IsIdle → v.Waits (backend.answer c v).2 := by
    intro γ c v hc hv
    by_cases hmounts : c.Mounts
    · obtain ⟨e, he⟩ := hc hmounts
      cases c with
      | mount => exact hv.waits_mount he
      | _ => exact hmounts.elim
    · rw [hv.answer hmounts]
      exact .refl hv
  exact h.rel (R := fun v v' => v.IsIdle → v.Waits v') (fun _ => .refl) htrans hcall
    (fun _ _ => False.elim) hv

/-- What is no attempt to mount changes nothing at all. -/
theorem IsIdle.run_deed (hv : v.IsIdle) {d : Deed} (hd : ¬d.Mounts) :
    (d.program.run backend v).2 = v := by
  have hcall : ∀ {γ : Type} (c : Call γ) v, ¬c.Mounts →
      Retains IsIdle id v (backend.answer c v).2 := by
    intro γ c v hc hv
    rw [hv.answer hc]
    exact ⟨hv, rfl⟩
  exact ((d.program_not_mounts hd).run_rel .refl (fun _ _ _ => .trans) hcall v hv).2

end HostVolume

/-- **Nothing happens before a volume is mounted.** A new volume in memory, and one on the host on
which nothing is open, are idle for as long as no mount succeeds, whatever is done to them and
whatever faults are switched on. The entries in memory stay as they are, and so does the host, but
for the directories that failed mounts create on the way to the root. Every path is refused, so no
handle is given out; finding finds nothing, deleting by name deletes nothing, and every other
operation fails. -/
theorem untouched_until_mounted [Allocator] :
    (∀ mountPoint v, MemoryVolume.backend.Idles MemoryVolume.Faulted (.new mountPoint) v →
      v.IsIdle ∧ v.nodes = (MemoryVolume.new mountPoint).nodes ∧ MemoryVolume.backend.Rests v) ∧
    ∀ v₀ v : HostVolume, v₀.IsIdle → HostVolume.backend.Idles (fun _ _ => False) v₀ v →
      v₀.Waits v ∧ (∀ d : Deed, ¬d.Mounts → (d.program.run HostVolume.backend v).2 = v) ∧
        HostVolume.backend.Rests v := by
  refine ⟨fun mountPoint v h => ?_, fun v₀ v hv h => ?_⟩
  · obtain ⟨hidle, hnodes⟩ := MemoryVolume.isIdle_of_idles h (.new mountPoint)
    exact ⟨hidle, hnodes, Backend.RefusesPaths.rests hidle.refuses⟩
  · have hwaits := HostVolume.waits_of_idles h hv
    exact ⟨hwaits, fun d hd => hwaits.isIdle.run_deed hd,
      Backend.RefusesPaths.rests hwaits.isIdle.refuses⟩

/-- A mount that is made to fail; and one on the host that fails because a file stands where the
root should be, after it has created a directory on the way there. -/
theorem untouched_until_mounted_failed :
    letI : Allocator := .upTo 1024 16
    let v := (MemoryVolume.new "/lfs").setFaults
      { failMounts := 1, removeOnOpendir := some (1, "/") }
    let v₁ := ((Deed.gate {} "/lfs").program.run MemoryVolume.backend v).2
    let v₂ := ((Deed.call (.opendir "/")).program.run MemoryVolume.backend v₁).2
    let w : HostVolume :=
      { mountPoint := "/lfs", root := .ofText "new/../f"
        system := ((HostSystem.new (.ascending default) ["w"]).createFile ["w", "f"]).2 }
    let w₁ := ((Deed.call .mount).program.run HostVolume.backend w).2
    (v₁.faults.failMounts = 0 ∧ v₂.nodes = (MemoryVolume.new "/lfs").nodes ∧
      ∀ config, Operation.runOn MemoryVolume.backend
        ((Request.find "/lfs" "" .file).operation config) v₂ = (.ok (.entries []), v₂)) ∧
    (w.system.node? ["w", "new"] = none ∧ w₁.system.node? ["w", "new"] = some (.directory 1) ∧
      ((Deed.call (.mkdir "/lfs/a")).program.run HostVolume.backend w₁).2 = w₁ ∧
      ∀ config dir name, dir ≠ "" → Operation.runOn HostVolume.backend
        ((Request.deleteMatching dir name).operation config) w₁ = (.ok (.number 0), w₁)) := by
  intro v v₁ v₂ w w₁
  let _ : Allocator := .upTo 1024 16
  have hv : MemoryVolume.backend.Idles MemoryVolume.Faulted (.new "/lfs") v :=
    .change .start ⟨_, rfl⟩
  have hv₁ : MemoryVolume.backend.Idles MemoryVolume.Faulted (.new "/lfs") v₁ :=
    .deed _ hv ⟨fun _ => ⟨_, rfl⟩, trivial⟩
  have hv₂ : MemoryVolume.backend.Idles MemoryVolume.Faulted (.new "/lfs") v₂ :=
    hv₁.of_not_mounts not_false
  have hw : w.IsIdle := ⟨⟨rfl, rfl⟩, rfl⟩
  have hfails : (HostVolume.backend.answer .mount w).1
      = .error (.ofSystem (.os Errno.alreadyExists)) := by decide +kernel
  have hw₁ : HostVolume.backend.Idles (fun _ _ => False) w w₁ :=
    .deed _ .start ⟨fun _ => ⟨_, hfails⟩, trivial⟩
  obtain ⟨-, hnodes, hrests⟩ := untouched_until_mounted.1 "/lfs" v₂ hv₂
  obtain ⟨-, hstays, hrests'⟩ := untouched_until_mounted.2 w w₁ hw hw₁
  exact ⟨⟨rfl, hnodes, fun config => hrests.declines.find config _ _ _⟩,
    by decide +kernel, by decide +kernel, hstays (.call (.mkdir "/lfs/a")) not_false,
    hrests'.declines.deleteMatching⟩

end FlashVolume

import FlashVolume.Proofs.Footprints
import FlashVolume.Proofs.Memory.Failures
import FlashVolume.Proofs.Storage.Runs
/-!
# Queries

The operations of sections 4.3 to 4.5 of the specification that change nothing.

A query is an operation or a command of the shell that asks for something and changes nothing:

| | queries |
| --- | --- |
| operations | reading, sizes, digests, finding, listing, uniqueness, the last history number |
| commands | `ls`, `find`, `read`, `size`, `exists`, `sha256`, `crc32`, `history` |

What its calls are is a matter of the program alone (`Program.Only`). So it holds of every event of
every run, whatever the volume answers and whether or not the run comes to an end
(`Program.Only.makes`), and what those calls leave of a volume in memory follows from it: all of it
(`MemoryVolume.pathMap_of_isQuery`), also if the query fails.
-/

namespace FlashVolume

namespace Program

variable {α : Type} {allowed : {γ : Type} → Call γ → Prop} {p q : Program α}

/-- A step is an allowed call, and so are the steps after it. -/
theorem Only.step (hp : p.Only allowed) {event : Event} (h : p.Step event q) :
    allowed event.call ∧ q.Only allowed := by
  cases h with
  | call c next answer => exact ⟨hp.1, hp.2 answer⟩
  | failed => exact ⟨hp.1, hp.2 _ _⟩
  | ended => exact ⟨hp.1, hp.2 _ _⟩
  | stopped => exact ⟨hp.1, hp.2 _ _⟩
  | passed => exact ⟨hp.1, hp⟩

/-- **All events of a run are allowed calls.** -/
theorem Only.makes (hp : p.Only allowed) {events : List Event} (h : p.Makes events q) :
    ∀ event ∈ events, allowed event.call := by
  induction h with
  | start p => simp
  | step first rest ih =>
    obtain ⟨hevent, hrest⟩ := hp.step first
    exact List.forall_mem_cons.2 ⟨hevent, ih hrest⟩

end Program

namespace Event

/-- The calls that change a volume, but for `open`, which changes it if its mode says so. -/
def changing : List CallName :=
  [.write, .truncate, .mkdir, .unlink, .mount]

/-- The call of the event changes nothing, and a file that it opens is opened for reading alone. -/
structure Inspects (event : Event) : Prop where
  name : event.call.name ∉ changing
  mode : ∀ path mode answer, event = ⟨.open path mode, answer⟩ →
    mode.read = true ∧ mode.write = false ∧ mode.create = false ∧ mode.append = false

/-- A call that asks changes nothing, whatever it is answered. -/
theorem inspects_of_isQuery {event : Event} (h : event.call.IsQuery) : event.Inspects where
  name := by
    obtain ⟨c, answer⟩ := event
    cases c <;> simp_all [Call.IsQuery, Call.name, changing]
  mode := by
    rintro path mode answer rfl
    obtain rfl : mode = .readOnly := h
    exact ⟨rfl, rfl, rfl, rfl⟩

end Event

/-- What a program of queries does, to any volume and to one in memory. -/
structure Program.ChangesNothing {α : Type} (p : Program α) : Prop where
  /-- No event of any run changes the volume, the runs included that are not over. -/
  inspects : ∀ events q, p.Makes events q → ∀ event ∈ events, event.Inspects
  /-- Every path of a volume in memory is afterwards what it was, mounted or not, with any faults
  but the one that removes an entry behind a call's back. -/
  pathMap : ∀ v : MemoryVolume, v.faults.removeOnOpendir = none →
    ∀ path, (p.run MemoryVolume.backend v).2.pathMap path = v.pathMap path

/-- **From calls to runs**: a program that can only ask changes nothing in any run. -/
theorem Program.Only.changesNothing {α : Type} {p : Program α} (hp : p.Only Call.IsQuery) :
    p.ChangesNothing where
  inspects := fun _ _ h event hevent => Event.inspects_of_isQuery (hp.makes h event hevent)
  pathMap := fun _ hv path => congrFun (MemoryVolume.pathMap_of_isQuery hv hp) path

/-- **Queries change nothing.** -/
theorem queries_changeNothing [Allocator] (config : Config) :
    (∀ request : Request, request.IsQuery → (request.operation config).run.ChangesNothing) ∧
      ∀ command : Command, command.IsQuery → (Reply.ofCommand config command).ChangesNothing :=
  ⟨fun _ h => (Request.operation_isQuery config h : Program.Only _ _).changesNothing,
    fun _ h => (Reply.ofCommand_isQuery config h).changesNothing⟩

/-- A digest that reads too little and a file that cannot be closed behind what was read: the file
is afterwards what it was. -/
theorem queries_changeNothing_failed :
    letI : Allocator := .upTo 1024 16
    let v := ((MemoryVolume.newMounted "/lfs").insertFile "/lfs/f" [1, 2, 3]).setFaults
      { readLimit := some 1, failClose := true }
    let digest := (Request.digest "/lfs/f" 3 .crc32).operation {}
    let text := Reply.ofCommand {} (.read "/lfs/f" 1)
    (digest.run.run MemoryVolume.backend v).1
        = .error (.ioError "short read of /lfs/f (1 of 3 bytes)") ∧
      (digest.run.run MemoryVolume.backend v).2.pathMap "/lfs/f" = some (.file [1, 2, 3]) ∧
      (text.run MemoryVolume.backend v).1
        = .text "error -5: IO error: close /lfs/f: IO error: injected close failure" ∧
      (text.run MemoryVolume.backend v).2.pathMap "/lfs/f" = some (.file [1, 2, 3]) := by
  intro v digest text
  let _ : Allocator := .upTo 1024 16
  obtain ⟨hrequests, hcommands⟩ := queries_changeNothing {}
  have hdigest : digest.run.ChangesNothing := hrequests (.digest "/lfs/f" 3 .crc32) trivial
  have htext : text.ChangesNothing := hcommands (.read "/lfs/f" 1) trivial
  have hfile : v.pathMap "/lfs/f" = some (.file [1, 2, 3]) := by decide
  exact ⟨by decide +kernel, (hdigest.pathMap v rfl _).trans hfile, by decide +kernel,
    (htext.pathMap v rfl _).trans hfile⟩

end FlashVolume

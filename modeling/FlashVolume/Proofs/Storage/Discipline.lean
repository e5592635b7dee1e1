import FlashVolume.File
import FlashVolume.Proofs.Storage.Runs
import Mathlib.Data.List.Forall2
/-!
# The discipline of handles

A handle is opened, used and closed once, and while it is open no other one is opened.
`Event.after` says so as an automaton: its state is the handle that is open, if one is, and it stops
at an event that is not in order.

| event | state before | state after |
| --- | --- | --- |
| `open`, `opendir` that answers a handle | none | the handle |
| `open`, `opendir` that fails | any | the same |
| `read`, `write`, `seek`, `truncate`, `readdir` | the handle it names | the same |
| `close`, `closedir`, whatever it answers | the handle it names | none |
| any other call | any | the same |

`Program.Leads` is the automaton run over all branches of a program at once. It also says that what
`closedir` answers makes no difference. One step keeps it (`Leads.step`), so every run is in order
from beginning to end.
-/

namespace FlashVolume

/-- A handle that is open. -/
inductive OpenHandle where
  | file (handle : FileHandle)
  | directory (handle : DirHandle)
deriving DecidableEq, Repr

namespace Event

/-- Goes on if the handle that is open is the one that is named. -/
def using? (handle : OpenHandle) (after : Option OpenHandle) (held : Option OpenHandle) :
    Option (Option OpenHandle) :=
  if held = some handle then some after else none

/-- Goes on with a new handle, if one is answered and none is open. -/
def opening? (held : Option OpenHandle) :
    Except StorageError OpenHandle → Option (Option OpenHandle)
  | .ok handle => if held = none then some (some handle) else none
  | .error _ => some held

/-- The handle that is open after an event; `none` if the event is not in order. -/
def after (held : Option OpenHandle) : Event → Option (Option OpenHandle)
  | ⟨.open _ _, answer⟩ => opening? held (answer.map .file)
  | ⟨.opendir _, answer⟩ => opening? held (answer.map .directory)
  | ⟨.read file _, _⟩ => using? (.file file) held held
  | ⟨.write file _, _⟩ => using? (.file file) held held
  | ⟨.seek file _, _⟩ => using? (.file file) held held
  | ⟨.truncate file _, _⟩ => using? (.file file) held held
  | ⟨.readdir dir, _⟩ => using? (.directory dir) held held
  | ⟨.close file, _⟩ => using? (.file file) none held
  | ⟨.closedir dir, _⟩ => using? (.directory dir) none held
  | _ => some held

/-- The handle that is open after some events, from when none was; `none` if one of the events is
not in order. -/
def handleAfter (events : List Event) : Option (Option OpenHandle) :=
  events.foldlM after none

/-- The events are the same, except for what a `closedir` answers. -/
inductive Alike : Event → Event → Prop where
  | same (event : Event) : Alike event event
  | closedir (dir : DirHandle) (answer answer' : Except StorageError Unit) :
      Alike ⟨.closedir dir, answer⟩ ⟨.closedir dir, answer'⟩

/-- A handle in hand may be used. -/
@[simp] theorem using?_self (handle : OpenHandle) (after : Option OpenHandle) :
    using? handle after (some handle) = some after :=
  if_pos rfl

/-- An event that is in order opens a handle while none is open, closes the one that is, or
leaves it. -/
theorem after_cases {event : Event} {held mid : Option OpenHandle}
    (h : event.after held = some mid) :
    (held = none ∧ mid.isSome ∧ ∀ other, event.after (some other) = none) ∨
      (held.isSome ∧ mid = none) ∨ mid = held := by
  have huse : ∀ {handle after}, using? handle after held = some mid →
      held = some handle ∧ mid = after := by
    intro handle after h
    rw [using?] at h
    split at h
    · exact ⟨‹_›, (Option.some.inj h).symm⟩
    · cases h
  have hopen : ∀ {answer}, opening? held answer = some mid →
      (held = none ∧ mid.isSome ∧ ∀ other, opening? (some other) answer = none) ∨ mid = held := by
    rintro (e | handle) h
    · exact .inr (Option.some.inj h).symm
    · rw [opening?] at h
      split at h
      · cases h
        exact .inl ⟨‹_›, rfl, fun _ => rfl⟩
      · cases h
  obtain ⟨c, answer⟩ := event
  cases c with
  | «open» => exact (hopen h).imp_right .inr
  | opendir => exact (hopen h).imp_right .inr
  | close => obtain ⟨rfl, rfl⟩ := huse h; exact .inr (.inl ⟨rfl, rfl⟩)
  | closedir => obtain ⟨rfl, rfl⟩ := huse h; exact .inr (.inl ⟨rfl, rfl⟩)
  | read => exact .inr (.inr (huse h).2)
  | write => exact .inr (.inr (huse h).2)
  | seek => exact .inr (.inr (huse h).2)
  | truncate => exact .inr (.inr (huse h).2)
  | readdir => exact .inr (.inr (huse h).2)
  | _ => exact .inr (.inr (Option.some.inj h).symm)

/-- **What is opened is closed once.**  Behind an event that opens a handle there is one that closes
it, and the events between the two keep it open. -/
theorem exists_close_of_handleAfter {before rest : List Event} {event : Event}
    {handle : OpenHandle} (hevent : event.after none = some (some handle))
    (h : handleAfter (before ++ event :: rest) = some none) :
    ∃ work close later, rest = work ++ close :: later ∧
      (∀ e ∈ work, e.after (some handle) = some (some handle)) ∧
      close.after (some handle) = some none ∧ handleAfter later = some none := by
  -- The handle is open behind the event, as no other one was before it.
  have hrest : rest.foldlM after (some handle) = some none := by
    rw [handleAfter, List.foldlM_append] at h
    obtain ⟨held, -, h⟩ := Option.bind_eq_some_iff.1 h
    rw [List.foldlM_cons] at h
    obtain ⟨mid, hmid, h⟩ := Option.bind_eq_some_iff.1 h
    rcases after_cases hevent with ⟨-, -, hother⟩ | ⟨hnone, -⟩ | hsame
    · cases held with
      | none =>
        rw [hevent] at hmid
        cases hmid
        exact h
      | some other =>
        rw [hother other] at hmid
        cases hmid
    · cases hnone
    · cases hsame
  clear h
  induction rest with
  | nil => cases hrest
  | cons e rest ih =>
    rw [List.foldlM_cons] at hrest
    obtain ⟨held, hheld, hrest⟩ := Option.bind_eq_some_iff.1 hrest
    rcases after_cases hheld with ⟨hnone, -⟩ | ⟨-, rfl⟩ | rfl
    · cases hnone
    · exact ⟨[], e, rest, rfl, List.forall_mem_nil _, hheld, hrest⟩
    · obtain ⟨work, close, later, rfl, hwork, hclose⟩ := ih hrest
      refine ⟨e :: work, close, later, rfl, ?_, hclose⟩
      rintro e' (_ | ⟨_, he'⟩)
      · exact hheld
      · exact hwork e' he'

end Event

namespace Program

variable {α β : Type} {held mid final : Option OpenHandle}

/-- Every run of the program, started while `held` is open, is in order and ends with `final` open;
and it does not depend on what a `closedir` answers. -/
def Leads (held : Option OpenHandle) : Program α → Option OpenHandle → Prop
  | ret _, final => held = final
  | call c next, final =>
    (∀ answer, ∃ mid, Event.after held ⟨c, answer⟩ = some mid ∧ (next answer).Leads mid final) ∧
      (c.name = .closedir → ∀ answer answer', next answer = next answer')
  | scan dir _ _ next, final =>
    held = some (.directory dir) ∧ ∀ acc error, (next acc error).Leads held final

/-- What the first part leaves open, the second finds open. -/
theorem Leads.bind {p : Program α} {f : α → Program β} (hp : p.Leads held mid)
    (hf : ∀ a, (f a).Leads mid final) : (p.bind f).Leads held final := by
  induction p generalizing held with
  | ret a =>
    obtain rfl : held = mid := hp
    exact hf a
  | call c next ih =>
    refine ⟨fun answer => ?_, fun hc answer answer' => ?_⟩
    · obtain ⟨after, hafter, hnext⟩ := hp.1 answer
      exact ⟨after, hafter, ih answer hnext⟩
    · exact congrArg (Program.bind · f) (hp.2 hc answer answer')
  | scan dir visit start next ih => exact ⟨hp.1, fun acc error => ih acc error (hp.2 acc error)⟩

/-- **One event is in order.** -/
theorem Leads.step {p q : Program α} {event : Event} (hp : p.Leads held final)
    (h : p.Step event q) : ∃ mid, Event.after held event = some mid ∧ q.Leads mid final := by
  cases h with
  | call c next answer => exact hp.1 answer
  | failed dir visit acc next e =>
    obtain ⟨rfl, hnext⟩ := hp
    exact ⟨_, Event.using?_self _ _, hnext acc (some e)⟩
  | ended dir visit acc next entry hend =>
    obtain ⟨rfl, hnext⟩ := hp
    exact ⟨_, Event.using?_self _ _, hnext acc none⟩
  | stopped dir visit acc acc' next entry hend hvisit =>
    obtain ⟨rfl, hnext⟩ := hp
    exact ⟨_, Event.using?_self _ _, hnext acc' none⟩
  | passed dir visit acc acc' next entry hend hvisit =>
    obtain ⟨rfl, hnext⟩ := hp
    exact ⟨_, Event.using?_self _ _, rfl, hnext⟩

/-- **The events of a run are in order.** -/
theorem Leads.makes {p q : Program α} {events : List Event} (hp : p.Leads held final)
    (h : p.Makes events q) :
    ∃ mid, events.foldlM Event.after held = some mid ∧ q.Leads mid final := by
  induction h generalizing held with
  | start p => exact ⟨held, rfl, hp⟩
  | step first rest ih =>
    obtain ⟨next, hnext, hq⟩ := hp.step first
    obtain ⟨mid, hmid, hr⟩ := ih hq
    refine ⟨mid, ?_, hr⟩
    rw [List.foldlM_cons, hnext]
    exact hmid

/-- Events that are alike leave the same program. -/
theorem Leads.step_alike {p q q' : Program α} {event event' : Event} (hp : p.Leads held final)
    (h : p.Step event q) (h' : p.Step event' q') (halike : event.Alike event') : q = q' := by
  cases halike with
  | same => exact h.unique h'
  | closedir dir answer answer' =>
    obtain ⟨next, rfl, rfl⟩ := h.of_call nofun
    obtain ⟨next', hcall, rfl⟩ := h'.of_call nofun
    cases hcall
    exact hp.2 rfl answer answer'

/-- **What a `closedir` answers makes no difference.** -/
theorem Leads.answer_alike {p : Program α} {events events' : List Event} {a a' : α}
    (hp : p.Leads held final) (h : p.Makes events (ret a)) (h' : p.Makes events' (ret a'))
    (halike : List.Forall₂ Event.Alike events events') : a = a' := by
  induction halike generalizing p held with
  | nil =>
    cases h
    cases h'
    rfl
  | cons hfirst hrest ih =>
    cases h with
    | step first rest =>
      cases h' with
      | step first' rest' =>
        obtain rfl := hp.step_alike first first' hfirst
        obtain ⟨mid, -, hq⟩ := hp.step first
        exact ih hq rest rest'

/-- The program is in order with its handles, whatever its calls are answered. -/
structure IsDisciplined (p : Program α) : Prop where
  /-- At every moment of a run all events so far are in order. -/
  inOrder : ∀ events q, p.Makes events q → ∃ held, Event.handleAfter events = some held
  /-- At the end no handle is open. -/
  allClosed : ∀ events a, p.Makes events (ret a) → Event.handleAfter events = some none
  /-- What is opened is closed once: between the two events the handle stays open. -/
  closedOnce : ∀ before event rest a handle, p.Makes (before ++ event :: rest) (ret a) →
    event.after none = some (some handle) →
      ∃ work close later, rest = work ++ close :: later ∧
        (∀ e ∈ work, e.after (some handle) = some (some handle)) ∧
        close.after (some handle) = some none ∧ Event.handleAfter later = some none
  /-- What a `closedir` answers makes no difference. -/
  closedirIgnored : ∀ events events' a a', p.Makes events (ret a) → p.Makes events' (ret a') →
    List.Forall₂ Event.Alike events events' → a = a'

/-- **A program that leads from no handle to no handle is in order.** -/
theorem Leads.isDisciplined {p : Program α} (hp : p.Leads none none) : p.IsDisciplined := by
  have hclosed : ∀ events a, p.Makes events (ret a) → Event.handleAfter events = some none := by
    intro events a h
    obtain ⟨held, hheld, hend⟩ := hp.makes h
    obtain rfl : held = none := hend
    exact hheld
  refine ⟨?_, hclosed, ?_, ?_⟩
  · intro events q h
    obtain ⟨held, hheld, -⟩ := hp.makes h
    exact ⟨held, hheld⟩
  · intro before event rest a handle h hevent
    exact Event.exists_close_of_handleAfter hevent (hclosed _ a h)
  · intro events events' a a' h h' halike
    exact hp.answer_alike h h' halike

end Program

/-! ### Calls -/

namespace Call

variable {α : Type} {held : Option OpenHandle}

/-- The call opens and closes nothing, and is in order while `held` is open. -/
structure Preserves (held : Option OpenHandle) (c : Call α) : Prop where
  after : ∀ answer, Event.after held ⟨c, answer⟩ = some held
  name_ne : c.name ≠ .closedir

/-- Looking up a path needs no handle. -/
theorem preserves_stat (path : String) : (stat path).Preserves held :=
  ⟨fun _ => rfl, nofun⟩

/-- Making a directory needs no handle. -/
theorem preserves_mkdir (path : String) : (mkdir path).Preserves held :=
  ⟨fun _ => rfl, nofun⟩

/-- Removing a path needs no handle. -/
theorem preserves_unlink (path : String) : (unlink path).Preserves held :=
  ⟨fun _ => rfl, nofun⟩

/-- Reading leaves the file open. -/
theorem preserves_read (file : FileHandle) (length : Nat) :
    (read file length).Preserves (some (.file file)) :=
  ⟨fun _ => Event.using?_self _ _, nofun⟩

/-- Writing leaves the file open. -/
theorem preserves_write (file : FileHandle) (data : Bytes) :
    (write file data).Preserves (some (.file file)) :=
  ⟨fun _ => Event.using?_self _ _, nofun⟩

/-- Seeking leaves the file open. -/
theorem preserves_seek (file : FileHandle) (offset : Nat) :
    (seek file offset).Preserves (some (.file file)) :=
  ⟨fun _ => Event.using?_self _ _, nofun⟩

/-- Truncating leaves the file open. -/
theorem preserves_truncate (file : FileHandle) (length : Nat) :
    (truncate file length).Preserves (some (.file file)) :=
  ⟨fun _ => Event.using?_self _ _, nofun⟩

end Call

/-! ### Operations -/

namespace Operation

variable {α β : Type} {held : Option OpenHandle}

/-- The operation is in order, and leaves open what is open. -/
def Keeps (held : Option OpenHandle) (p : Operation α) : Prop :=
  p.run.Leads held held

/-- Nothing to do keeps what is open. -/
theorem keeps_pure (a : α) : Keeps held (pure a : Operation α) :=
  rfl

/-- An error keeps what is open. -/
theorem keeps_throw (e : Error) : Keeps held (throw e : Operation α) :=
  rfl

/-- An answer known in advance keeps what is open. -/
theorem keeps_ofExcept (answer : Except Error α) : Keeps held (ofExcept answer) :=
  rfl

/-- A call that preserves what is open keeps it, whatever its error is reported as. -/
theorem keeps_requestOr {c : Call α} (hc : c.Preserves held) (fault : StorageError → Error) :
    Keeps held (requestOr fault c) :=
  ⟨fun answer => ⟨held, hc.after answer, rfl⟩, fun hname => absurd hname hc.name_ne⟩

/-- The same if the error of the volume is reported. -/
theorem keeps_request {c : Call α} (hc : c.Preserves held) : Keeps held (request c) :=
  keeps_requestOr hc Error.ofStorage

/-- The same if the error is looked at. -/
theorem keeps_attempt {c : Call α} (hc : c.Preserves held) : Keeps held (attempt c) :=
  ⟨fun answer => ⟨held, hc.after answer, rfl⟩, fun hname => absurd hname hc.name_ne⟩

/-- A program that leads back to what is open keeps it. -/
theorem keeps_ofProgram {p : Program α} (hp : p.Leads held held) : Keeps held (ofProgram p) :=
  hp.bind fun _ => rfl

/-- Looking at what came of the work makes no call. -/
theorem Keeps.observe {p : Operation α} (hp : Keeps held p) : Keeps held (observe p) :=
  Program.Leads.bind hp fun _ => rfl

/-- Two steps that keep what is open keep it together. -/
theorem Keeps.bind {p : Operation α} {f : α → Operation β} (hp : Keeps held p)
    (hf : ∀ a, Keeps held (f a)) : Keeps held (p >>= f) := by
  refine Program.Leads.bind hp ?_
  rintro (e | a)
  · rfl
  · exact hf a

/-- What is made of a result makes no call. -/
theorem Keeps.map {p : Operation α} (hp : Keeps held p) (f : α → β) : Keeps held (f <$> p) := by
  rw [map_eq_pure_bind]
  exact hp.bind fun a => keeps_pure (f a)

/-- A choice keeps what both ways keep. -/
theorem Keeps.ite {c : Prop} [Decidable c] {p q : Operation α} (hp : Keeps held p)
    (hq : Keeps held q) : Keeps held (if c then p else q) := by
  split
  · exact hp
  · exact hq

/-- The check for an empty path makes no call. -/
theorem keeps_requirePath (path : String) : Keeps held (File.requirePath path) := by
  rw [File.requirePath]
  exact Keeps.ite (keeps_throw _) (keeps_pure _)

/-- **A file is closed on every way out.** -/
theorem keeps_withFile {path : String} {mode : OpenMode} {work : FileHandle → Operation α}
    (hwork : ∀ file, Keeps (some (.file file)) (work file)) :
    Keeps none (File.withFile path mode work) := by
  have hclose : ∀ file result, Program.Leads (some (.file file))
      (attempt (.close file) >>= fun closed =>
        ofExcept (File.afterClose path result closed) : Operation α).run none := by
    intro file result
    have hcall : Program.Leads (some (.file file)) (attempt (.close file)).run none :=
      ⟨fun answer => ⟨none, Event.using?_self _ _, rfl⟩, nofun⟩
    refine hcall.bind ?_
    rintro (e | closed) <;> rfl
  have hfile : ∀ file, Program.Leads (some (.file file))
      (observe (work file) >>= fun result => attempt (.close file) >>= fun closed =>
        ofExcept (File.afterClose path result closed) : Operation α).run none := by
    intro file
    rw [run_observe_bind]
    exact Program.Leads.bind (hwork file) (hclose file)
  refine ⟨?_, nofun⟩
  rintro (e | file)
  · exact ⟨none, rfl, rfl⟩
  · exact ⟨some (.file file), rfl, hfile file⟩

/-- Resolving a name makes no call. -/
theorem keeps_inDirectory {dir name : String} {config : Config} {work : String → Operation α}
    (hwork : ∀ path, Keeps held (work path)) :
    Keeps held (File.inDirectory dir name config work) := by
  rw [File.inDirectory]
  exact Keeps.bind (keeps_ofExcept _) hwork

end Operation
end FlashVolume

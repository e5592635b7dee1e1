import FlashVolume.Gate
import FlashVolume.Proofs.Storage.Runs
/-!
# Gates with one flag mount once

Section 4.7 of the specification: `mount`, called many times.

Several gates can share a flag, and each of them can be used at any time, or share the flag with
one more gate. The volume behind them is any volume: `mount` and `statvfs` answer as they like, and
what happens to the volume between two visits is open.

| flag before | what `mount` answers | calls of the visit | result | flag after |
| --- | --- | --- | --- | --- |
| down | an error | `mount` | that error | down |
| down | a success | `mount`, `statvfs` | a success | up |
| up | | none | a success | up |

`Visit.Fails`, `Visit.Mounts` and `Visit.Passes` are the rows. A run over gates whose flag is down
is some visits that fail, and behind them nothing, or one that mounts and then visits that pass
(`Visited.phases`); everything else follows from this order.
-/

namespace FlashVolume

/-- The volume was mounted. -/
def Event.mounts : Event → Bool
  | ⟨.mount, .ok ()⟩ => true
  | _ => false

/-- One use of a gate: the calls that it made, its result, and the flag of the gate afterwards. -/
structure Visit where
  gate : Nat
  mountPoint : String
  events : List Event
  result : Except Error Unit
  flag : Bool

namespace Visit

/-- The volume was asked to mount and refused, and the flag stays down. -/
def Fails (visit : Visit) : Prop :=
  ∃ e, visit.events = [⟨.mount, .error e⟩] ∧ visit.result = .error (.ofStorage e) ∧
    visit.flag = false

/-- The volume was mounted, and asked for its numbers; whatever it answered, the flag is up. -/
def Mounts (visit : Visit) : Prop :=
  ∃ stats, visit.events = [⟨.mount, .ok ()⟩, ⟨.statvfs visit.mountPoint, stats⟩] ∧
    visit.result = .ok () ∧ visit.flag = true

/-- The flag was up, and the volume was left alone. -/
def Passes (visit : Visit) : Prop :=
  visit.events = [] ∧ visit.result = .ok () ∧ visit.flag = true

variable {visit : Visit}

/-- A visit whose mount fails leaves the flag down. -/
theorem Fails.flag_eq (h : visit.Fails) : visit.flag = false := by
  obtain ⟨e, -, -, hflag⟩ := h
  exact hflag

/-- A visit that mounts raises the flag. -/
theorem Mounts.flag_eq (h : visit.Mounts) : visit.flag = true := by
  obtain ⟨stats, -, -, hflag⟩ := h
  exact hflag

/-- A visit whose mount fails counts for none. -/
theorem Fails.countP_mounts (h : visit.Fails) : visit.events.countP Event.mounts = 0 := by
  obtain ⟨e, hevents, -, -⟩ := h
  rw [hevents]
  rfl

/-- A visit that mounts counts for one. -/
theorem Mounts.countP_mounts (h : visit.Mounts) : visit.events.countP Event.mounts = 1 := by
  obtain ⟨stats, hevents, -, -⟩ := h
  rw [hevents]
  rfl

/-- A visit that finds the flag raised does not mount again. -/
theorem Passes.countP_mounts (h : visit.Passes) : visit.events.countP Event.mounts = 0 := by
  rw [h.1]
  rfl

/-- Visits that do not mount do not mount together. -/
theorem countP_flatMap_events {visits : List Visit}
    (h : ∀ visit ∈ visits, visit.events.countP Event.mounts = 0) :
    (visits.flatMap Visit.events).countP Event.mounts = 0 := by
  rw [List.countP_eq_zero]
  intro event hevent
  obtain ⟨visit, hvisit, hevent⟩ := List.mem_flatMap.1 hevent
  exact List.countP_eq_zero.1 (h visit hvisit) event hevent

end Visit

namespace MountState

/-- A volume that has been mounted is left alone. -/
theorem run_mount_true (mountPoint : String) :
    (mount mountPoint).run ⟨true⟩ = .ret (.ok (), ⟨true⟩) := rfl

/-- **The answer of `mount` decides,** and that of `statvfs` does not count. -/
theorem run_mount_false (mountPoint : String) :
    (mount mountPoint).run ⟨false⟩ =
      .call .mount fun
        | .error e => .ret (.error (.ofStorage e), ⟨false⟩)
        | .ok () => .call (.statvfs mountPoint) fun _ => .ret (.ok (), ⟨true⟩) := by
  refine congrArg (Program.call Call.mount) (funext fun answer => ?_)
  cases answer <;> rfl

end MountState

namespace Gates

variable {gates gates' next : Gates} {i : Nat} {state : MountState}

/-- Using a gate is using its flag. -/
theorem run_mount {gate : Nat} (hgate : gates.shares.lookup gate = some i)
    (hstate : gates.states[i]? = some state) (mountPoint : String) :
    (mount gate mountPoint).run gates =
      ((MountState.mount mountPoint).run state).bind fun (result, state) =>
        .ret (result, { gates with states := gates.states.set i state }) := by
  have hlocate : gates.locate gate = (i, gates) := by rw [locate, hgate]
  have hget : gates.states[i]?.getD {} = state := by rw [hstate, Option.getD_some]
  rw [← hget]
  simp only [mount, StateT.run_bind, StateT.run_get, StateT.run_monadLift, StateT.run_set,
    StateT.run_pure, monadLift_self, Program.bind_eq, Program.pure_eq, Program.bind, hlocate,
    Program.bind_bind]

/-- The flag with an index is up. -/
def flag (gates : Gates) (i : Nat) : Bool :=
  (gates.states[i]?.getD {}).mounted

/-- A gate is mounted if the flag it shares is raised. -/
theorem isMounted_eq_flag {gate : Nat} (hgate : gates.shares.lookup gate = some i) :
    gates.isMounted gate = gates.flag i := by
  rw [isMounted, hgate, flag]

/-- **What one visit does.** It makes a row of the table come true, and the flag is what the row
says; no other gate gets another flag. -/
theorem visit_cases {gate : Nat} {mountPoint : String} {events : List Event}
    {result : Except Error Unit} (hgate : gates.shares.lookup gate = some i)
    (hstate : gates.states[i]? = some state)
    (h : ((mount gate mountPoint).run gates).Makes events (.ret (result, next))) :
    let visit : Visit := ⟨gate, mountPoint, events, result, next.isMounted gate⟩
    next.states[i]? = some ⟨visit.flag⟩ ∧
      if state.mounted then visit.Passes else visit.Fails ∨ visit.Mounts := by
  have hbound : i < gates.states.length := (List.getElem?_eq_some_iff.1 hstate).1
  -- A flag that is set is read back, through the gate and in its place.
  have hset : ∀ b, next = { gates with states := gates.states.set i ⟨b⟩ } →
      next.states[i]? = some ⟨b⟩ ∧ next.isMounted gate = b := by
    rintro b rfl
    have hback : (gates.states.set i ⟨b⟩)[i]? = some ⟨b⟩ := List.getElem?_set_self hbound
    have hshown : isMounted { gates with states := gates.states.set i ⟨b⟩ } gate =
        flag { gates with states := gates.states.set i ⟨b⟩ } i := isMounted_eq_flag hgate
    rw [hshown, flag, hback, Option.getD_some]
    exact ⟨rfl, rfl⟩
  rw [run_mount hgate hstate] at h
  obtain ⟨_ | _⟩ := state
  · rw [MountState.run_mount_false] at h
    obtain ⟨answer, rest, rfl, hrest⟩ := Program.Makes.of_call h
    cases answer with
    | error e =>
      obtain ⟨rfl, hend⟩ := Program.Makes.of_ret hrest
      cases hend
      obtain ⟨hnext, hflag⟩ := hset false rfl
      dsimp only
      rw [hflag]
      exact ⟨hnext, .inl ⟨e, rfl, rfl, rfl⟩⟩
    | ok =>
      obtain ⟨stats, last, rfl, hlast⟩ := Program.Makes.of_call hrest
      obtain ⟨rfl, hend⟩ := Program.Makes.of_ret hlast
      cases hend
      obtain ⟨hnext, hflag⟩ := hset true rfl
      dsimp only
      rw [hflag]
      exact ⟨hnext, .inr ⟨stats, rfl, rfl, rfl⟩⟩
  · rw [MountState.run_mount_true] at h
    obtain ⟨rfl, hend⟩ := Program.Makes.of_ret h
    cases hend
    obtain ⟨hnext, hflag⟩ := hset true rfl
    dsimp only
    rw [hflag]
    exact ⟨hnext, rfl, rfl, rfl⟩

/-- Gates that have the flag `i` are used one after the other, and let other gates share it. -/
inductive Visited (i : Nat) : Gates → List Visit → Gates → Prop where
  | idle (gates : Gates) : Visited i gates [] gates
  | share {gates gates' : Gates} {visits : List Visit} {gate : Nat} (other : Nat)
      (hgate : gates.shares.lookup gate = some i)
      (rest : Visited i (gates.share gate other) visits gates') : Visited i gates visits gates'
  | visit {gates next gates' : Gates} {visits : List Visit} {gate : Nat} {mountPoint : String}
      {events : List Event} {result : Except Error Unit}
      (hgate : gates.shares.lookup gate = some i)
      (hrun : ((mount gate mountPoint).run gates).Makes events (.ret (result, next)))
      (rest : Visited i next visits gates') :
      Visited i gates (⟨gate, mountPoint, events, result, next.isMounted gate⟩ :: visits) gates'

/-- Sharing a flag leaves the flags as they are. -/
theorem states_share {gate : Nat} (hgate : gates.shares.lookup gate = some i) (other : Nat) :
    (gates.share gate other).states = gates.states := by
  rw [share, locate, hgate]

variable {visits : List Visit}

/-- **Behind a flag that is up nothing is called any more.** -/
theorem Visited.passes (h : gates.Visited i visits gates') (hup : gates.states[i]? = some ⟨true⟩) :
    (∀ visit ∈ visits, visit.Passes) ∧ gates'.states[i]? = some ⟨true⟩ := by
  induction h with
  | idle gates => exact ⟨List.forall_mem_nil _, hup⟩
  | share other hgate rest ih => exact ih (states_share hgate other ▸ hup)
  | visit hgate hrun rest ih =>
    obtain ⟨hnext, hpasses⟩ := visit_cases hgate hup hrun
    obtain ⟨hrest, hlast⟩ := ih (hpasses.2.2 ▸ hnext)
    exact ⟨List.forall_mem_cons.2 ⟨hpasses, hrest⟩, hlast⟩

/-- **The order of the visits.** Some fail; if one mounts after them, the flag is up from then on,
and the rest pass. -/
theorem Visited.phases (h : gates.Visited i visits gates')
    (hdown : gates.states[i]? = some ⟨false⟩) :
    ∃ failures rest, visits = failures ++ rest ∧ (∀ visit ∈ failures, visit.Fails) ∧
      (rest = [] ∧ gates'.states[i]? = some ⟨false⟩ ∨
        ∃ first later, rest = first :: later ∧ first.Mounts ∧ (∀ visit ∈ later, visit.Passes) ∧
          gates'.states[i]? = some ⟨true⟩) := by
  induction h with
  | idle gates => exact ⟨[], [], rfl, List.forall_mem_nil _, .inl ⟨rfl, hdown⟩⟩
  | share other hgate rest ih => exact ih (states_share hgate other ▸ hdown)
  | visit hgate hrun rest ih =>
    obtain ⟨hnext, hfails | hmounts⟩ := visit_cases hgate hdown hrun
    · obtain ⟨failures, later, rfl, hfailures, hlater⟩ := ih (hfails.flag_eq ▸ hnext)
      exact ⟨_ :: failures, later, rfl, List.forall_mem_cons.2 ⟨hfails, hfailures⟩, hlater⟩
    · obtain ⟨hpasses, hlast⟩ := rest.passes (hmounts.flag_eq ▸ hnext)
      exact ⟨[], _, rfl, List.forall_mem_nil _, .inr ⟨_, _, rfl, hmounts, hpasses, hlast⟩⟩

/-- A visit comes to an end, whatever the volume answers. -/
theorem exists_visit {gate : Nat} (hgate : gates.shares.lookup gate = some i)
    (hstate : gates.states[i]? = some state) (mountPoint : String)
    (answer : Except StorageError Unit) (stats : Except StorageError VolumeStats) :
    ∃ visit next, gates.Visited i [visit] next ∧ visit.gate = gate ∧
      visit.mountPoint = mountPoint ∧
      ∀ event ∈ visit.events, event = ⟨.mount, answer⟩ ∨ event = ⟨.statvfs mountPoint, stats⟩ := by
  -- The calls of the visit are the only thing that depends on the flag and on the answer.
  suffices h : ∃ events result next,
      ((mount gate mountPoint).run gates).Makes events (.ret (result, next)) ∧
      ∀ event ∈ events, event = ⟨.mount, answer⟩ ∨ event = ⟨.statvfs mountPoint, stats⟩ by
    obtain ⟨events, result, next, hrun, hevents⟩ := h
    exact ⟨_, next, .visit hgate hrun (.idle next), rfl, rfl, hevents⟩
  rw [run_mount hgate hstate]
  obtain ⟨_ | _⟩ := state
  · rw [MountState.run_mount_false]
    cases answer with
    | error e =>
      exact ⟨_, _, _, .step (.call _ _ (.error e)) (.start _),
        List.forall_mem_singleton.2 (.inl rfl)⟩
    | ok =>
      exact ⟨_, _, _, .step (.call _ _ (.ok ())) (.step (.call _ _ stats) (.start _)),
        List.forall_mem_cons.2 ⟨.inl rfl, List.forall_mem_singleton.2 (.inr rfl)⟩⟩
  · rw [MountState.run_mount_true]
    exact ⟨_, _, _, .start _, List.forall_mem_nil _⟩

/-- **Gates with one flag mount the volume at most once.**  The flag is down at first. Through
whichever of the gates the visits are made, and whatever `mount` and `statvfs` answer, `mount`
succeeds at most once, and the flag that every gate shows is up if and only if it has. The visits
before that call `mount` once each, fail with its error and leave the flag down; the one that mounts
succeeds whatever `statvfs` answers; the later ones succeed without a call. A visit comes to an end
in every case. -/
theorem mounts_once (hdown : gates.states[i]? = some ⟨false⟩) (h : gates.Visited i visits gates') :
    (visits.flatMap Visit.events).countP Event.mounts ≤ 1 ∧
    (∀ gate, gates'.shares.lookup gate = some i →
      (gates'.isMounted gate = true ↔ (visits.flatMap Visit.events).countP Event.mounts = 1)) ∧
    (∃ failures rest, visits = failures ++ rest ∧ (∀ visit ∈ failures, visit.Fails) ∧
      (rest = [] ∨ ∃ first later, rest = first :: later ∧ first.Mounts ∧
        ∀ visit ∈ later, visit.Passes)) ∧
    ∀ gate, gates'.shares.lookup gate = some i → ∀ mountPoint answer stats,
      ∃ visit next, gates'.Visited i [visit] next ∧ visit.gate = gate ∧
        visit.mountPoint = mountPoint ∧
        ∀ event ∈ visit.events,
          event = ⟨.mount, answer⟩ ∨ event = ⟨.statvfs mountPoint, stats⟩ := by
  obtain ⟨failures, rest, rfl, hfailures, hrest⟩ := h.phases hdown
  have hfailed : (failures.flatMap Visit.events).countP Event.mounts = 0 :=
    Visit.countP_flatMap_events fun visit hvisit => (hfailures visit hvisit).countP_mounts
  rw [List.flatMap_append, List.countP_append, hfailed, Nat.zero_add]
  rcases hrest with ⟨rfl, hlast⟩ | ⟨first, later, rfl, hfirst, hlater, hlast⟩
  · refine ⟨Nat.zero_le _, ?_, ⟨failures, [], rfl, hfailures, .inl rfl⟩,
      fun gate hgate mountPoint answer stats => exists_visit hgate hlast mountPoint answer stats⟩
    intro gate hgate
    rw [isMounted_eq_flag hgate, flag, hlast]
    simp
  · have hpassed : (later.flatMap Visit.events).countP Event.mounts = 0 :=
      Visit.countP_flatMap_events fun visit hvisit => (hlater visit hvisit).countP_mounts
    rw [List.flatMap_cons, List.countP_append, hfirst.countP_mounts, hpassed]
    refine ⟨Nat.le_refl _, ?_,
      ⟨failures, first :: later, rfl, hfailures, .inr ⟨first, later, rfl, hfirst, hlater⟩⟩,
      fun gate hgate mountPoint answer stats => exists_visit hgate hlast mountPoint answer stats⟩
    intro gate hgate
    rw [isMounted_eq_flag hgate, flag, hlast]
    simp

/-- A mount that fails is tried again, through a gate that has come to the flag in between; the
numbers of the volume cannot be had. -/
theorem mounts_once_retried :
    let gates : Gates := share {} 0 1
    let gates' : Gates := ⟨[⟨true⟩], [(2, 0), (1, 0), (0, 0)]⟩
    let visits : List Visit :=
      [⟨0, "/lfs", [⟨.mount, .error .noSpace⟩], .error (.storage .noSpace), false⟩,
        ⟨2, "/lfs", [⟨.mount, .ok ()⟩, ⟨.statvfs "/lfs", .error .notMounted⟩], .ok (), true⟩,
        ⟨0, "/lfs", [], .ok (), true⟩]
    gates.states[0]? = some ⟨false⟩ ∧ gates.Visited 0 visits gates' ∧
      (visits.flatMap Visit.events).countP Event.mounts = 1 ∧ gates'.isMounted 1 = true := by
  intro gates gates' visits
  have hdown : gates.states[0]? = some ⟨false⟩ := rfl
  have hfails : ((mount 0 "/lfs").run gates).Makes [⟨.mount, .error .noSpace⟩]
      (.ret (.error (.storage .noSpace), gates)) :=
    .step (.call .mount _ _) (.start _)
  have hmounts : ((mount 2 "/lfs").run (gates.share 1 2)).Makes
      [⟨.mount, .ok ()⟩, ⟨.statvfs "/lfs", .error .notMounted⟩] (.ret (.ok (), gates')) :=
    .step (.call .mount _ _) (.step (.call (.statvfs "/lfs") _ _) (.start _))
  have hpasses : ((mount 0 "/lfs").run gates').Makes [] (.ret (.ok (), gates')) := .start _
  have hfirst : gates.shares.lookup 1 = some 0 := rfl
  have hvisited : gates.Visited 0 visits gates' :=
    .visit rfl hfails (.share 2 hfirst (.visit rfl hmounts (.visit rfl hpasses (.idle gates'))))
  have hcount : (visits.flatMap Visit.events).countP Event.mounts = 1 := rfl
  exact ⟨hdown, hvisited, hcount, ((mounts_once hdown hvisited).2.1 1 rfl).2 hcount⟩

end Gates
end FlashVolume

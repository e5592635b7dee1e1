import FlashVolume.File
import FlashVolume.Storage.Backend
/-!
# Runs on any volume

A `Backend` is a function of its state, and a directory of it comes to an end. A volume need be
neither: it can answer as it likes, and go on delivering entries for ever. `Program.Step` is one
call with one answer, and it leaves the answer open; `Program.Makes` is a sequence of such events.
What is shown of all sequences holds on every volume, and at every moment of a run, whether or not
the run comes to an end.

A run on a backend is one of them, and its calls are answered by the backend
(`exists_answers_run`).
-/

universe u

namespace FlashVolume

/-- A call that was made, and what it was answered. -/
structure Event where
  {Result : Type}
  call : Call Result
  answer : Except StorageError Result

namespace Program

variable {σ : Type u} {α β : Type}

/-- One call of a program, its answer, and what is left of the program. -/
inductive Step : Program α → Event → Program α → Prop where
  | call {γ : Type} (c : Call γ) (next : Except StorageError γ → Program α)
      (answer : Except StorageError γ) : Step (call c next) ⟨c, answer⟩ (next answer)
  /-- A read of the directory fails. -/
  | failed {γ : Type} (dir : DirHandle) (visit : γ → Entry → ForInStep γ) (acc : γ)
      (next : γ → Option StorageError → Program α) (e : StorageError) :
      Step (scan dir visit acc next) ⟨.readdir dir, .error e⟩ (next acc (some e))
  /-- The end mark comes. -/
  | ended {γ : Type} (dir : DirHandle) (visit : γ → Entry → ForInStep γ) (acc : γ)
      (next : γ → Option StorageError → Program α) (entry : Entry) (hend : entry.isEnd = true) :
      Step (scan dir visit acc next) ⟨.readdir dir, .ok entry⟩ (next acc none)
  /-- The visitor stops at an entry. -/
  | stopped {γ : Type} (dir : DirHandle) (visit : γ → Entry → ForInStep γ) (acc acc' : γ)
      (next : γ → Option StorageError → Program α) (entry : Entry) (hend : entry.isEnd = false)
      (hvisit : visit acc entry = .done acc') :
      Step (scan dir visit acc next) ⟨.readdir dir, .ok entry⟩ (next acc' none)
  /-- The visitor goes on behind an entry. -/
  | passed {γ : Type} (dir : DirHandle) (visit : γ → Entry → ForInStep γ) (acc acc' : γ)
      (next : γ → Option StorageError → Program α) (entry : Entry) (hend : entry.isEnd = false)
      (hvisit : visit acc entry = .yield acc') :
      Step (scan dir visit acc next) ⟨.readdir dir, .ok entry⟩ (scan dir visit acc' next)

/-- The events so far, and what is left of the program. A run has come to an end if that is an
answer. -/
inductive Makes : Program α → List Event → Program α → Prop where
  | start (p : Program α) : Makes p [] p
  | step {p q r : Program α} {event : Event} {events : List Event} (first : Step p event q)
      (rest : Makes q events r) : Makes p (event :: events) r

/-- **Only the answers are open.**  The same event leaves the same program. -/
theorem Step.unique {p q q' : Program α} {event : Event} (h : p.Step event q)
    (h' : p.Step event q') : q = q' := by
  cases h with
  | call c next answer =>
    cases h'
    rfl
  | failed dir visit acc next e =>
    cases h'
    rfl
  | ended dir visit acc next entry hend =>
    cases h' with
    | ended => rfl
    | stopped _ _ _ _ _ _ hend' => simp [hend] at hend'
    | passed _ _ _ _ _ _ hend' => simp [hend] at hend'
  | stopped dir visit acc acc' next entry hend hvisit =>
    cases h' with
    | ended _ _ _ _ _ hend' => simp [hend] at hend'
    | stopped _ _ _ _ _ _ _ hvisit' =>
      rw [hvisit] at hvisit'
      cases hvisit'
      rfl
    | passed _ _ _ _ _ _ _ hvisit' => simp [hvisit] at hvisit'
  | passed dir visit acc acc' next entry hend hvisit =>
    cases h' with
    | ended _ _ _ _ _ hend' => simp [hend] at hend'
    | stopped _ _ _ _ _ _ _ hvisit' => simp [hvisit] at hvisit'
    | passed _ _ _ _ _ _ _ hvisit' =>
      rw [hvisit] at hvisit'
      cases hvisit'
      rfl

/-- An answer makes no call. -/
theorem not_step_ret {a : α} {event : Event} {q : Program α} : ¬(ret a).Step event q :=
  nofun

/-- A call that reads no directory is made by a program that makes just this call. -/
theorem Step.of_call {γ : Type} {p q : Program α} {c : Call γ} {answer : Except StorageError γ}
    (h : p.Step ⟨c, answer⟩ q) (hc : c.name ≠ .readdir) :
    ∃ next, p = Program.call c next ∧ q = next answer := by
  generalize hevent : Event.mk c answer = event at h
  cases h with
  | call c next answer =>
    cases hevent
    exact ⟨next, rfl, rfl⟩
  | failed => cases hevent; exact absurd rfl hc
  | ended => cases hevent; exact absurd rfl hc
  | stopped => cases hevent; exact absurd rfl hc
  | passed => cases hevent; exact absurd rfl hc

/-- A finished program makes no event. -/
theorem Makes.of_ret {a b : α} {events : List Event} (h : (ret a).Makes events (ret b)) :
    events = [] ∧ b = a := by
  cases h with
  | start => exact ⟨rfl, rfl⟩
  | step first rest => exact absurd first not_step_ret

/-- A run of a program that starts with a call starts with the answer to it. -/
theorem Makes.of_call {γ : Type} {c : Call γ} {next : Except StorageError γ → Program α}
    {events : List Event} {a : α} (h : (call c next).Makes events (ret a)) :
    ∃ answer rest, events = ⟨c, answer⟩ :: rest ∧ (next answer).Makes rest (ret a) := by
  cases h with
  | step first rest =>
    cases first with
    | call _ _ answer => exact ⟨answer, _, rfl, rest⟩

/-- Runs that meet are one run. -/
theorem Makes.append {p q r : Program α} {events events' : List Event} (h : p.Makes events q)
    (h' : q.Makes events' r) : p.Makes (events ++ events') r := by
  induction h with
  | start p => exact h'
  | step first rest ih => exact .step first (ih h')

/-- **The answers decide what a run comes to.** -/
theorem Makes.unique {p q q' : Program α} {events : List Event} (h : p.Makes events q)
    (h' : p.Makes events q') : q = q' := by
  induction h with
  | start p =>
    cases h'
    rfl
  | step first rest ih =>
    cases h' with
    | step first' rest' =>
      obtain rfl := first.unique first'
      exact ih rest'

/-- **A run can always come to an end:** a call that fails is an answer, too. -/
theorem exists_makes_ret (p : Program α) : ∃ events a, p.Makes events (ret a) := by
  induction p with
  | ret a => exact ⟨[], a, .start _⟩
  | call c next ih =>
    obtain ⟨events, a, hrest⟩ := ih (.error .noSpace)
    exact ⟨_, a, .step (.call c next _) hrest⟩
  | scan dir visit start next ih =>
    obtain ⟨events, a, hrest⟩ := ih start (some .noSpace)
    exact ⟨_, a, .step (.failed dir visit start next _) hrest⟩

/-! ### Programs in sequence -/

/-- A call of the first part is one of the sequence. -/
theorem Step.bind {p q : Program α} {event : Event} (h : p.Step event q) (f : α → Program β) :
    (p.bind f).Step event (q.bind f) := by
  cases h with
  | call c next answer => exact .call c _ answer
  | failed dir visit acc next e => exact .failed dir visit acc _ e
  | ended dir visit acc next entry hend => exact .ended dir visit acc _ entry hend
  | stopped dir visit acc acc' next entry hend hvisit =>
    exact .stopped dir visit acc acc' _ entry hend hvisit
  | passed dir visit acc acc' next entry hend hvisit =>
    exact .passed dir visit acc acc' _ entry hend hvisit

/-- What follows is not reached while the first part runs. -/
theorem Makes.bind {p q : Program α} {events : List Event} (h : p.Makes events q)
    (f : α → Program β) : (p.bind f).Makes events (q.bind f) := by
  induction h with
  | start p => exact .start _
  | step first rest ih => exact .step (first.bind f) ih

/-- A call of a program in sequence is one of its first part, while there is one. -/
theorem Step.of_bind {p : Program α} {f : α → Program β} {event : Event} {q : Program β}
    (h : (p.bind f).Step event q) :
    (∃ p', p.Step event p' ∧ q = p'.bind f) ∨ ∃ a, p = ret a ∧ (f a).Step event q := by
  cases p with
  | ret a => exact .inr ⟨a, rfl, h⟩
  | call c next =>
    cases h
    exact .inl ⟨_, .call c next _, rfl⟩
  | scan dir visit acc next =>
    left
    cases h with
    | failed _ _ _ _ e => exact ⟨_, .failed dir visit acc next e, rfl⟩
    | ended _ _ _ _ entry hend => exact ⟨_, .ended dir visit acc next entry hend, rfl⟩
    | stopped _ _ _ acc' _ entry hend hvisit =>
      exact ⟨_, .stopped dir visit acc acc' next entry hend hvisit, rfl⟩
    | passed _ _ _ acc' _ entry hend hvisit =>
      exact ⟨_, .passed dir visit acc acc' next entry hend hvisit, rfl⟩

/-- **A run of a program in sequence is a run of its first part, and then one of the second.** -/
theorem Makes.of_bind {p : Program α} {f : α → Program β} {events : List Event} {b : β}
    (h : (p.bind f).Makes events (ret b)) :
    ∃ before after a, events = before ++ after ∧ p.Makes before (ret a) ∧
      (f a).Makes after (ret b) := by
  -- By induction on the events; each belongs to the first part until that has an answer.
  induction events generalizing p with
  | nil =>
    cases p with
    | ret a => exact ⟨[], [], a, rfl, .start _, h⟩
    | call c next => cases h
    | scan dir visit acc next => cases h
  | cons event events ih =>
    cases h with
    | step first rest =>
      rcases first.of_bind with ⟨p', hstep, rfl⟩ | ⟨a, rfl, hstep⟩
      · obtain ⟨before, after, a, rfl, hbefore, hafter⟩ := ih rest
        exact ⟨event :: before, after, a, rfl, .step hstep hbefore, hafter⟩
      · exact ⟨[], event :: events, a, rfl, .start _, .step hstep rest⟩

/-! ### Runs on backends -/

end Program

namespace Backend

variable {σ : Type u} {B : Backend σ} {s s₁ s' s'' : σ} {events events' : List Event}

/-- The volume answers the calls of the events, one after the other. -/
inductive Answers (B : Backend σ) : σ → List Event → σ → Prop where
  | idle (s : σ) : Answers B s [] s
  | call {α : Type} (c : Call α) {s s' : σ} {events : List Event}
      (rest : Answers B (B.answer c s).2 events s') :
      Answers B s (⟨c, (B.answer c s).1⟩ :: events) s'

/-- The first event is answered in the first state. -/
theorem Answers.of_answer {α : Type} {c : Call α} {answer : Except StorageError α}
    (h : B.answer c s = (answer, s₁)) (rest : B.Answers s₁ events s') :
    B.Answers s (⟨c, answer⟩ :: events) s' := by
  obtain ⟨rfl, rfl⟩ := Prod.mk.inj h
  exact .call c rest

/-- Answers that meet are one sequence. -/
theorem Answers.append (h : B.Answers s events s') (h' : B.Answers s' events' s'') :
    B.Answers s (events ++ events') s'' := by
  induction h with
  | idle s => exact h'
  | call c rest ih => exact .call c (ih h')

/-- The events before some are answered first. -/
theorem Answers.of_append (h : B.Answers s (events ++ events') s'') :
    ∃ s', B.Answers s events s' ∧ B.Answers s' events' s'' := by
  induction events generalizing s with
  | nil => exact ⟨s, .idle s, h⟩
  | cons event events ih =>
    cases h with
    | call c rest =>
      obtain ⟨s', hbefore, hafter⟩ := ih rest
      exact ⟨s', .call c hbefore, hafter⟩

end Backend

namespace Program

variable {σ : Type u} {α β : Type}

/-- The entries that a backend delivers are events of a scan. -/
theorem exists_answers_scan (B : Backend σ) {γ : Type} (dir : DirHandle)
    (visit : γ → Entry → ForInStep γ) (next : γ → Option StorageError → Program α) (acc : γ)
    (s : σ) : ∃ events, (scan dir visit acc next).Makes events
        (next (B.scan dir visit acc s).1.1 (B.scan dir visit acc s).1.2) ∧
      B.Answers s events (B.scan dir visit acc s).2 := by
  fun_induction Backend.scan B dir visit acc s with
  | case1 acc s e s' hread =>
    exact ⟨_, .step (.failed dir visit acc next e) (.start _), .of_answer hread (.idle s')⟩
  | case2 acc s entry s' hread hend =>
    exact ⟨_, .step (.ended dir visit acc next entry hend) (.start _), .of_answer hread (.idle s')⟩
  | case3 acc s entry s' hread hend acc' hvisit =>
    have hentry : entry.isEnd = false := by simpa using hend
    exact ⟨_, .step (.stopped dir visit acc acc' next entry hentry hvisit) (.start _),
      .of_answer hread (.idle s')⟩
  | case4 acc s entry s' hread hend acc' hvisit ih =>
    have hentry : entry.isEnd = false := by simpa using hend
    obtain ⟨events, hrest, hanswers⟩ := ih
    exact ⟨_, .step (.passed dir visit acc acc' next entry hentry hvisit) hrest,
      .of_answer hread hanswers⟩

/-- **A backend makes one of the runs,** and answers its calls. -/
theorem exists_answers_run (B : Backend σ) (p : Program α) (s : σ) :
    ∃ events, p.Makes events (ret (p.run B s).1) ∧ B.Answers s events (p.run B s).2 := by
  induction p generalizing s with
  | ret a => exact ⟨[], .start _, .idle s⟩
  | call c next ih =>
    obtain ⟨events, hrest, hanswers⟩ := ih (B.answer c s).1 (B.answer c s).2
    exact ⟨_, .step (.call c next (B.answer c s).1) hrest, .call c hanswers⟩
  | scan dir visit start next ih =>
    obtain ⟨before, hscan, hbefore⟩ := exists_answers_scan B dir visit next start s
    obtain ⟨after, hrest, hafter⟩ := ih _ _ (B.scan dir visit start s).2
    exact ⟨before ++ after, hscan.append hrest, hbefore.append hafter⟩

/-- **A backend makes one of the runs.** -/
theorem exists_makes_run (B : Backend σ) (p : Program α) (s : σ) :
    ∃ events, p.Makes events (ret (p.run B s).1) := by
  obtain ⟨events, hmakes, -⟩ := exists_answers_run B p s
  exact ⟨events, hmakes⟩

end Program

/-! ### Operations -/

namespace Operation

variable {α β : Type} {events : List Event}

/-- The operation has made the events, and has come to an end with the result. -/
def Makes (p : Operation α) (events : List Event) (result : Except Error α) : Prop :=
  p.run.Makes events (.ret result)

/-- An operation that is observed does not fail. -/
theorem run_observe_bind (p : Operation α) (f : Except Error α → Operation β) :
    (observe p >>= f).run = p.run.bind fun result => (f result).run :=
  Program.bind_bind p.run _ _

/-- A program goes on as an operation with its answer. -/
theorem run_ofProgram_bind (p : Program α) (f : α → Operation β) :
    (ofProgram p >>= f).run = p.bind fun a => (f a).run :=
  Program.bind_bind p _ _

/-- Finished work makes no event. -/
theorem makes_ret {p : Operation α} {a result : Except Error α} (hp : p.run = .ret a)
    (h : p.Makes events result) : events = [] ∧ result = a := by
  rw [Makes, hp] at h
  exact h.of_ret

/-- Nothing to do makes no event. -/
theorem makes_pure {a : α} {result : Except Error α}
    (h : Makes (pure a : Operation α) events result) : events = [] ∧ result = .ok a :=
  makes_ret rfl h

/-- An error makes no event. -/
theorem makes_throw {e : Error} {result : Except Error α}
    (h : Makes (throw e : Operation α) events result) : events = [] ∧ result = .error e :=
  makes_ret rfl h

/-- A call is one event, and what it is answered is all that counts. -/
theorem makes_requestOr {fault : StorageError → Error} {c : Call α} {result : Except Error α}
    (h : Makes (requestOr fault c) events result) :
    ∃ answer, events = [⟨c, answer⟩] ∧ result = answer.mapError fault := by
  obtain ⟨answer, rest, rfl, hrest⟩ := Program.Makes.of_call h
  obtain ⟨rfl, rfl⟩ := Program.Makes.of_ret hrest
  exact ⟨answer, rfl, rfl⟩

/-- A call that is attempted makes one event. -/
theorem makes_attempt {c : Call α} {result : Except Error (Except StorageError α)}
    (h : Makes (attempt c) events result) :
    ∃ answer, events = [⟨c, answer⟩] ∧ result = .ok answer := by
  obtain ⟨answer, rest, rfl, hrest⟩ := Program.Makes.of_call h
  obtain ⟨rfl, rfl⟩ := Program.Makes.of_ret hrest
  exact ⟨answer, rfl, rfl⟩

/-- **An operation ends with the error of its first part, or goes on after its success.** -/
theorem makes_bind {p : Operation α} {f : α → Operation β} {result : Except Error β}
    (h : Makes (p >>= f) events result) :
    (∃ e, p.Makes events (.error e) ∧ result = .error e) ∨
      ∃ before after a, events = before ++ after ∧ p.Makes before (.ok a) ∧
        (f a).Makes after result := by
  obtain ⟨before, after, answer, rfl, hp, hf⟩ := Program.Makes.of_bind h
  cases answer with
  | error e =>
    obtain ⟨rfl, rfl⟩ := makes_throw (e := e) hf
    rw [List.append_nil]
    exact .inl ⟨e, hp, rfl⟩
  | ok a => exact .inr ⟨before, after, a, rfl, hp, hf⟩

/-- What is made of a result makes no event. -/
theorem makes_map {p : Operation α} {f : α → β} {result : Except Error β}
    (h : Makes (f <$> p) events result) :
    ∃ answer, p.Makes events answer ∧ result = answer.map f := by
  rw [map_eq_pure_bind] at h
  rcases makes_bind h with ⟨e, hp, rfl⟩ | ⟨before, after, a, rfl, hp, hf⟩
  · exact ⟨.error e, hp, rfl⟩
  · obtain ⟨rfl, rfl⟩ := makes_pure hf
    rw [List.append_nil]
    exact ⟨.ok a, hp, rfl⟩

/-- What starts with a look at the path is refused for the empty one, and makes no call. -/
theorem requirePath_bind (path : String) (f : Unit → Operation α) :
    (File.requirePath path >>= f) =
      if path.isEmpty then throw (.invalidInput "empty path") else f () := by
  rw [File.requirePath]
  split <;> rfl

/-- **Work on a file is what stands between its `open` and its `close`.** -/
theorem makes_withFile {path : String} {mode : OpenMode} {work : FileHandle → Operation α}
    {result : Except Error α} (h : Makes (File.withFile path mode work) events result) :
    (∃ e, events = [⟨.open path mode, .error e⟩] ∧ result = .error (.ofStorage e)) ∨
      ∃ file during worked closed,
        events = ⟨.open path mode, .ok file⟩ :: during ++ [⟨.close file, closed⟩] ∧
        (work file).Makes during worked ∧ result = File.afterClose path worked closed := by
  rcases makes_bind h with ⟨e, hopen, rfl⟩ | ⟨before, after, file, rfl, hopen, hrest⟩
  · obtain ⟨answer, rfl, hanswer⟩ := makes_requestOr hopen
    cases answer with
    | error e => cases hanswer; exact .inl ⟨e, rfl, rfl⟩
    | ok file => cases hanswer
  · obtain ⟨answer, rfl, hanswer⟩ := makes_requestOr hopen
    cases answer with
    | error e => cases hanswer
    | ok file =>
      cases hanswer
      rw [Makes, run_observe_bind] at hrest
      obtain ⟨during, last, worked, rfl, hwork, hclose⟩ := Program.Makes.of_bind hrest
      rcases makes_bind hclose with ⟨e, hclose, -⟩ | ⟨before, after, closed, rfl, hclose, hend⟩
      · obtain ⟨_, -, hanswer⟩ := makes_attempt hclose
        cases hanswer
      · obtain ⟨closed, rfl, hanswer⟩ := makes_attempt hclose
        cases hanswer
        obtain ⟨rfl, rfl⟩ := makes_ret rfl hend
        exact .inr ⟨file, during, worked, closed, by simp, hwork, rfl⟩

/-- Every answer to the `open` and to the `close` is possible. -/
theorem Makes.withFile {path : String} {mode : OpenMode} {file : FileHandle}
    {work : FileHandle → Operation α} {worked : Except Error α}
    (h : (work file).Makes events worked) (closed : Except StorageError Unit) :
    (File.withFile path mode work).Makes
      (⟨.open path mode, .ok file⟩ :: events ++ [⟨.close file, closed⟩])
      (File.afterClose path worked closed) :=
  .step (.call _ _ _) <| ((h.bind _).bind _).append <| .step (.call _ _ _) (.start _)

end Operation
end FlashVolume

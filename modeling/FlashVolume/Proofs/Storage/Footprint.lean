import FlashVolume.Proofs.Storage.Running
/-!
# Footprints

Which calls a program can make. `Program.Only` says that all of them are of some kind, on every
branch, so it holds of every backend; what each such call keeps, the whole program keeps.

Three kinds of calls matter: a query changes no entry, a call that builds removes none, and a call
that clears creates none and spares the root.
-/

universe u v

namespace FlashVolume

namespace Call

variable {α : Type}

/-- The call can create an entry at the path. -/
def Creates (path : String) : Call α → Prop
  | .open p mode => p = path ∧ mode.create = true
  | .mkdir p => p = path
  | _ => False

/-- The call can give a file new contents. -/
def Alters : Call α → Prop
  | .write _ _ => True
  | .truncate _ _ => True
  | _ => False

/-- The call can remove the entry at the path. -/
def Removes (path : String) : Call α → Prop
  | .unlink p => p = path
  | _ => False

/-- The call attaches the volume. -/
def Mounts : Call α → Prop
  | .mount => True
  | _ => False

/-- The call changes no entry. -/
def IsQuery : Call α → Prop
  | .open _ mode => mode = .readOnly
  | .mount => False
  | .write _ _ => False
  | .truncate _ _ => False
  | .mkdir _ => False
  | .unlink _ => False
  | _ => True

/-- The call removes no entry. -/
def Builds (c : Call α) : Prop :=
  ∀ path, ¬c.Removes path

/-- The call creates no entry and does not remove the root. -/
def Clears (c : Call α) : Prop :=
  (∀ path, ¬c.Creates path) ∧ ¬c.Removes "/"

/-- The call removes no entry, and the volume is mounted without it. -/
def BuildsMounted (c : Call α) : Prop :=
  c.Builds ∧ ¬c.Mounts

/-- The call clears, and the volume is mounted without it. -/
def ClearsMounted (c : Call α) : Prop :=
  c.Clears ∧ ¬c.Mounts

/-- A call that spares the root builds or clears. -/
theorem builds_or_clears {c : Call α} (h : ¬c.Removes "/") : c.Builds ∨ c.Clears := by
  cases c with
  | unlink path => exact .inr ⟨fun _ => not_false, h⟩
  | _ => exact .inl fun _ => not_false

/-- A call that asks creates nothing. -/
theorem IsQuery.not_creates {c : Call α} (h : c.IsQuery) (path : String) : ¬c.Creates path := by
  cases c <;> simp_all [IsQuery, Creates, OpenMode.readOnly]

/-- A call that asks changes no contents. -/
theorem IsQuery.not_alters {c : Call α} (h : c.IsQuery) : ¬c.Alters := by
  cases c <;> simp_all [IsQuery, Alters]

/-- A call that asks mounts nothing. -/
theorem IsQuery.not_mounts {c : Call α} (h : c.IsQuery) : ¬c.Mounts := by
  cases c <;> simp_all [IsQuery, Mounts]

/-- What only asks removes nothing. -/
theorem IsQuery.builds {c : Call α} (h : c.IsQuery) : c.Builds := by
  intro path
  cases c <;> simp_all [IsQuery, Removes]

/-- What only asks creates nothing. -/
theorem IsQuery.clears {c : Call α} (h : c.IsQuery) : c.Clears :=
  ⟨h.not_creates, h.builds "/"⟩

/-- What only asks does not mount either. -/
theorem IsQuery.buildsMounted {c : Call α} (h : c.IsQuery) : c.BuildsMounted :=
  ⟨h.builds, h.not_mounts⟩

/-- What only asks does not mount either. -/
theorem IsQuery.clearsMounted {c : Call α} (h : c.IsQuery) : c.ClearsMounted :=
  ⟨h.clears, h.not_mounts⟩

end Call

/-! ### States -/

/-- The invariant stays, and with it what `f` shows of the state. -/
def Retains {σ : Type u} {β : Sort v} (P : σ → Prop) (f : σ → β) (s s' : σ) : Prop :=
  P s → P s' ∧ f s' = f s

namespace Retains

variable {σ : Type u} {β : Sort v} {P : σ → Prop} {f : σ → β} {s s' s'' : σ}

/-- A volume retains what it has. -/
theorem refl (s : σ) : Retains P f s s :=
  fun hs => ⟨hs, rfl⟩

/-- What is retained twice is retained. -/
theorem trans (h : Retains P f s s') (h' : Retains P f s' s'') : Retains P f s s'' := by
  intro hs
  obtain ⟨hs', hshown⟩ := h hs
  obtain ⟨hs'', hshown'⟩ := h' hs'
  exact ⟨hs'', hshown'.trans hshown⟩

end Retains

/-! ### Programs -/

namespace Program

variable {σ : Type u} {α β : Type} {allowed : {γ : Type} → Call γ → Prop}

/-- Every call that the program can make is allowed, whatever the calls before it answer. -/
def Only (allowed : {γ : Type} → Call γ → Prop) : Program α → Prop
  | ret _ => True
  | call c next => allowed c ∧ ∀ answer, (next answer).Only allowed
  | scan dir _ _ next => allowed (.readdir dir) ∧ ∀ acc error, (next acc error).Only allowed

/-- Fewer calls are allowed among more. -/
theorem Only.mono {allowed' : {γ : Type} → Call γ → Prop} {p : Program α} (h : p.Only allowed)
    (himp : ∀ {γ : Type} (c : Call γ), allowed c → allowed' c) : p.Only allowed' := by
  induction p with
  | ret a => trivial
  | call c next ih => exact ⟨himp c h.1, fun answer => ih answer (h.2 answer)⟩
  | scan dir visit start next ih =>
    exact ⟨himp _ h.1, fun acc error => ih acc error (h.2 acc error)⟩

/-- Whatever a program makes are calls. -/
theorem only_true (p : Program α) : p.Only fun _ => True := by
  induction p with
  | ret a => trivial
  | call c next ih => exact ⟨trivial, ih⟩
  | scan dir visit start next ih => exact ⟨trivial, ih⟩

/-- Two parts that make allowed calls make them together. -/
theorem Only.bind {p : Program α} {f : α → Program β} (hp : p.Only allowed)
    (hf : ∀ a, (f a).Only allowed) : (p.bind f).Only allowed := by
  induction p with
  | ret a => exact hf a
  | call c next ih => exact ⟨hp.1, fun answer => ih answer (hp.2 answer)⟩
  | scan dir visit start next ih => exact ⟨hp.1, fun acc error => ih acc error (hp.2 acc error)⟩

section Running

variable {B : Backend σ} {R : σ → σ → Prop} (hrefl : ∀ s, R s s)
  (htrans : ∀ s₁ s₂ s₃, R s₁ s₂ → R s₂ s₃ → R s₁ s₃)
include htrans

/-- A scan is a run of `readdir` calls. -/
theorem scan_rel {dir : DirHandle} (hcall : ∀ s, R s (B.answer (.readdir dir) s).2) {γ : Type}
    (visit : γ → Entry → ForInStep γ) (acc : γ) (s : σ) : R s (B.scan dir visit acc s).2 := by
  have hstep : ∀ {s s' : σ} {answer : Except StorageError Entry},
      B.answer (.readdir dir) s = (answer, s') → R s s' := by
    intro s s' answer h
    simpa only [h] using hcall s
  fun_induction Backend.scan B dir visit acc s with
  | case1 acc s e s' hread => exact hstep hread
  | case2 acc s entry s' hread hend => exact hstep hread
  | case3 acc s entry s' hread hend acc' hvisit => exact hstep hread
  | case4 acc s entry s' hread hend acc' hvisit ih => exact htrans _ _ _ (hstep hread) ih

include hrefl in
/-- **What every call keeps, the program keeps.** -/
theorem Only.run_rel (hcall : ∀ {γ : Type} (c : Call γ) s, allowed c → R s (B.answer c s).2)
    {p : Program α} (hp : p.Only allowed) (s : σ) : R s (p.run B s).2 := by
  induction p generalizing s with
  | ret a => exact hrefl s
  | call c next ih => exact htrans _ _ _ (hcall c s hp.1) (ih _ (hp.2 _) _)
  | scan dir visit start next ih =>
    have hscan := scan_rel htrans (fun s => hcall (.readdir dir) s hp.1) visit start s
    exact htrans _ _ _ hscan (ih _ _ (hp.2 _ _) _)

end Running

end Program

/-! ### Operations -/

namespace Operation

variable {α β : Type} {allowed : {γ : Type} → Call γ → Prop}

/-- Every call that the operation can make is allowed. -/
def Only (allowed : {γ : Type} → Call γ → Prop) (p : Operation α) : Prop :=
  Program.Only allowed p.run

/-- Nothing to do makes no call. -/
theorem only_pure (a : α) : Only allowed (pure a : Operation α) := trivial

/-- An error makes no call. -/
theorem only_throw (e : Error) : Only allowed (throw e : Operation α) := trivial

/-- An answer known in advance makes no call. -/
theorem only_ofExcept (answer : Except Error α) : Only allowed (ofExcept answer) := trivial

/-- An allowed call may be made. -/
theorem only_request {c : Call α} (h : allowed c) : Only allowed (request c) :=
  ⟨h, fun _ => trivial⟩

/-- An allowed call may be made, whatever its error is reported as. -/
theorem only_requestOr {fault : StorageError → Error} {c : Call α} (h : allowed c) :
    Only allowed (requestOr fault c) :=
  ⟨h, fun _ => trivial⟩

/-- An allowed call may be made, and its error looked at. -/
theorem only_attempt {c : Call α} (h : allowed c) : Only allowed (attempt c) :=
  ⟨h, fun _ => trivial⟩

/-- A program of allowed calls may be run. -/
theorem only_ofProgram {p : Program α} (h : p.Only allowed) : Only allowed (ofProgram p) :=
  h.bind fun _ => trivial

/-- Looking at what came of the work makes no call. -/
theorem Only.observe {p : Operation α} (h : Only allowed p) : Only allowed (observe p) :=
  Program.Only.bind h fun _ => trivial

/-- Two parts that make allowed calls make them together. -/
theorem Only.bind {p : Operation α} {f : α → Operation β} (hp : Only allowed p)
    (hf : ∀ a, Only allowed (f a)) : Only allowed (p >>= f) := by
  refine Program.Only.bind hp ?_
  rintro (e | a)
  · trivial
  · exact hf a

/-- An operation on an answer makes calls only if the answer is no error. -/
theorem only_ofExcept_bind {answer : Except Error α} {f : α → Operation β}
    (h : ∀ a, answer = .ok a → Only allowed (f a)) : Only allowed (ofExcept answer >>= f) := by
  cases answer with
  | error e => trivial
  | ok a => exact h a rfl

/-- What is made of a result makes no call. -/
theorem Only.map {p : Operation α} (f : α → β) (hp : Only allowed p) : Only allowed (f <$> p) := by
  rw [map_eq_pure_bind]
  exact hp.bind fun a => only_pure (f a)

/-- Fewer calls are allowed among more. -/
theorem Only.mono {allowed' : {γ : Type} → Call γ → Prop} {p : Operation α} (h : Only allowed p)
    (himp : ∀ {γ : Type} (c : Call γ), allowed c → allowed' c) : Only allowed' p :=
  Program.Only.mono h himp

/-- A choice makes the calls of the way it takes. -/
theorem Only.ite {c : Prop} [Decidable c] {p q : Operation α} (hp : Only allowed p)
    (hq : Only allowed q) : Only allowed (if c then p else q) := by
  split
  · exact hp
  · exact hq

/-- The check for an empty path makes no call. -/
theorem only_requirePath (path : String) : Only allowed (File.requirePath path) := by
  rw [File.requirePath]
  exact Only.ite (only_throw _) (only_pure _)

/-- Work on a file makes its own calls between an open and a close. -/
theorem only_withFile {path : String} {mode : OpenMode} {work : FileHandle → Operation α}
    (hopen : allowed (.open path mode)) (hwork : ∀ file, Only allowed (work file))
    (hclose : ∀ file, allowed (.close file)) : Only allowed (File.withFile path mode work) := by
  refine (only_request hopen).bind fun file => ?_
  refine (hwork file).observe.bind fun result => ?_
  exact (only_attempt (hclose file)).bind fun closed => only_ofExcept _

/-- An operation on a name in a directory makes calls only if the name resolves. -/
theorem only_inDirectory {dir name : String} {config : Config} {work : String → Operation α}
    (h : ∀ path, Path.resolve dir name config = .ok path → Only allowed (work path)) :
    Only allowed (File.inDirectory dir name config work) := by
  rw [File.inDirectory]
  cases hresolve : Path.resolve dir name config with
  | error e => exact only_throw e
  | ok path => exact h path hresolve

end Operation
end FlashVolume

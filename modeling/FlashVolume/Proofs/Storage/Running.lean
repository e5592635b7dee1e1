import FlashVolume.File
import FlashVolume.Storage.Backend
/-!
# Running operations

What the pieces of an operation answer on a backend, and the state they leave. Each piece has one
equation; a proof about an operation uses these and does not open the tree of calls.
`runOn_withFile` is the price of opening a file: the work runs between an `open` that succeeded and
one `close`, and a failed `open` ends the operation.
-/

universe u

namespace FlashVolume

/-- What `read` does with the file once it is open. -/
def File.readFrom (offset : Nat) (buffer : Bytes) (file : FileHandle) : Operation Filled := do
  if offset ≠ 0 then Operation.request (.seek file offset)
  let bytes ← Operation.request (.read file buffer.length)
  return fill buffer bytes

namespace Operation

section Outcomes

variable {ε ε' : Type} {α β : Type}

/-- A result is mapped. -/
@[simp] theorem map_ok (f : α → β) (a : α) : (Except.ok a : Except ε α).map f = .ok (f a) := rfl

/-- An error is not. -/
@[simp] theorem map_error (f : α → β) (e : ε) :
    (Except.error e : Except ε α).map f = .error e := rfl

/-- A result has no error to map. -/
@[simp] theorem mapError_ok (f : ε → ε') (a : α) :
    (Except.ok a : Except ε α).mapError f = .ok a := rfl

/-- An error is mapped. -/
@[simp] theorem mapError_error (f : ε → ε') (e : ε) :
    (Except.error e : Except ε α).mapError f = .error (f e) := rfl

end Outcomes

variable {σ : Type u} {α β : Type}

/-- The answer of an operation on a backend, and the state after it. -/
def runOn (B : Backend σ) (p : Operation α) (s : σ) : Except Error α × σ :=
  Program.run B p.run s

variable (B : Backend σ) (s : σ)

/-- Nothing to do leaves the backend as it is. -/
@[simp] theorem runOn_pure (a : α) : runOn B (pure a) s = (.ok a, s) := rfl

/-- So does an error. -/
@[simp] theorem runOn_throw (e : Error) : runOn B (throw e : Operation α) s = (.error e, s) := rfl

/-- **An operation goes on only after a success.** -/
@[simp] theorem runOn_bind (p : Operation α) (f : α → Operation β) :
    runOn B (p >>= f) s =
      match runOn B p s with
      | (.ok a, s') => runOn B (f a) s'
      | (.error e, s') => (.error e, s') := by
  have h : runOn B (p >>= f) s =
      Program.run B (p.run.bind (ExceptT.bindCont f)) s := rfl
  rw [h, Program.run_bind]
  rcases hp : runOn B p s with ⟨_ | a, s'⟩ <;>
    simp only [runOn] at hp <;> rw [hp] <;> rfl

/-- What is made of a result changes nothing else. -/
@[simp] theorem runOn_map (f : α → β) (p : Operation α) :
    runOn B (f <$> p) s = ((runOn B p s).1.map f, (runOn B p s).2) := by
  rw [map_eq_pure_bind, runOn_bind]
  rcases runOn B p s with ⟨_ | a, s'⟩ <;> rfl

/-- A call that is attempted gives the answer of the backend as a result. -/
@[simp] theorem runOn_attempt (c : Call α) :
    runOn B (attempt c) s = (.ok (B.answer c s).1, (B.answer c s).2) := rfl

/-- A call that is requested fails as the backend does. -/
@[simp] theorem runOn_request (c : Call α) :
    runOn B (request c) s = ((B.answer c s).1.mapError Error.ofStorage, (B.answer c s).2) := rfl

/-- Or with the error that stands for the fault. -/
@[simp] theorem runOn_requestOr (fault : StorageError → Error) (c : Call α) :
    runOn B (requestOr fault c) s = ((B.answer c s).1.mapError fault, (B.answer c s).2) := rfl

/-- An error that is observed is a result. -/
@[simp] theorem runOn_observe (p : Operation α) :
    runOn B (observe p) s = (.ok (runOn B p s).1, (runOn B p s).2) := by
  have h : runOn B (observe p) s = Program.run B (p.run.bind fun a => .ret (.ok a)) s := rfl
  rw [h, Program.run_bind]
  rfl

/-- A program has no error of its own. -/
@[simp] theorem runOn_ofProgram (p : Program α) :
    runOn B (ofProgram p) s = (.ok (p.run B s).1, (p.run B s).2) := by
  have h : runOn B (ofProgram p) s = Program.run B (p.bind fun a => .ret (.ok a)) s := rfl
  rw [h, Program.run_bind]
  rfl

/-- An answer known in advance asks nothing of the backend. -/
@[simp] theorem runOn_ofExcept (answer : Except Error α) :
    runOn B (ofExcept answer) s = (answer, s) := rfl

/-- One of two ways is taken. -/
@[simp] theorem runOn_ite (c : Prop) [Decidable c] (p q : Operation α) :
    runOn B (if c then p else q) s = if c then runOn B p s else runOn B q s := by
  split <;> rfl

/-- An empty path is refused before anything is asked. -/
@[simp] theorem runOn_requirePath (path : String) :
    runOn B (File.requirePath path) s =
      if path.isEmpty then (.error (.invalidInput "empty path"), s) else (.ok (), s) := by
  simp [File.requirePath]

/-- **Work on a file runs between `open` and `close`.** -/
theorem runOn_withFile (path : String) (mode : OpenMode) (work : FileHandle → Operation α) :
    runOn B (File.withFile path mode work) s =
      match B.answer (.open path mode) s with
      | (.error e, s₁) => (.error (.ofStorage e), s₁)
      | (.ok file, s₁) =>
        let (result, s₂) := runOn B (work file) s₁
        let (closed, s₃) := B.answer (.close file) s₂
        (File.afterClose path result closed, s₃) := by
  rw [File.withFile, runOn_bind, runOn_request]
  rcases B.answer (.open path mode) s with ⟨_ | file, s₁⟩
  · rfl
  · simp

/-! ### Operations that succeed -/

section Successes

variable {B : Backend σ} {s s' : σ}

/-- Both parts of an operation that succeeds have succeeded. -/
theorem runOn_bind_ok {p : Operation α} {f : α → Operation β} {b : β}
    (h : runOn B (p >>= f) s = (.ok b, s')) :
    ∃ a s₁, runOn B p s = (.ok a, s₁) ∧ runOn B (f a) s₁ = (.ok b, s') := by
  rw [runOn_bind] at h
  rcases hp : runOn B p s with ⟨_ | a, s₁⟩
  · rw [hp] at h
    cases h
  · rw [hp] at h
    exact ⟨a, s₁, rfl, h⟩

/-- A requested call that succeeds was answered so. -/
theorem runOn_request_ok {c : Call α} {a : α} (h : runOn B (request c) s = (.ok a, s')) :
    B.answer c s = (.ok a, s') := by
  rw [runOn_request] at h
  rcases hc : B.answer c s with ⟨_ | b, s₁⟩
  · rw [hc] at h
    cases h
  · rw [hc] at h
    cases h
    rfl

/-- Work on a file has succeeded if the `open`, the work and the `close` have. -/
theorem runOn_withFile_ok {path : String} {mode : OpenMode} {work : FileHandle → Operation α}
    {a : α} (h : runOn B (File.withFile path mode work) s = (.ok a, s')) :
    ∃ file s₁ s₂, B.answer (.open path mode) s = (.ok file, s₁) ∧
      runOn B (work file) s₁ = (.ok a, s₂) ∧ B.answer (.close file) s₂ = (.ok (), s') := by
  rw [runOn_withFile] at h
  rcases hopen : B.answer (.open path mode) s with ⟨_ | file, s₁⟩
  · rw [hopen] at h
    cases h
  · rw [hopen] at h
    rcases hwork : runOn B (work file) s₁ with ⟨_ | b, s₂⟩ <;>
      rcases hclose : B.answer (.close file) s₂ with ⟨_ | ⟨⟩, s₃⟩ <;>
        simp only [hwork, hclose, File.afterClose, Prod.mk.injEq, reduceCtorEq, false_and,
          Except.ok.injEq] at h
    obtain ⟨rfl, rfl⟩ := h
    exact ⟨file, s₁, s₂, rfl, hwork, hclose⟩

end Successes

end Operation
end FlashVolume

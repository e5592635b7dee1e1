import FlashVolume.Storage.Program
/-!
# Backends

What section 10.2 of the specification calls a backend.

A backend answers storage calls from a state. `Program.run` runs a program on a backend: the
calls are answered in order, each from the state that the one before it left.
-/

universe u

namespace FlashVolume

/-- A volume, as what it answers to each call. -/
structure Backend (σ : Type u) where
  /-- The answer to a call, and the state after it. -/
  answer : {α : Type} → Call α → σ → Except StorageError α × σ
  /-- A bound on the entries that an open directory has yet to deliver. -/
  entriesLeft : DirHandle → σ → Nat
  /-- An entry that is delivered is one less to come. -/
  entriesLeft_lt : ∀ {dir : DirHandle} {s s' : σ} {entry : Entry},
    answer (.readdir dir) s = (.ok entry, s') → entry.isEnd = false →
      entriesLeft dir s' < entriesLeft dir s

namespace Backend

/-- Shows the remaining entries of a directory to a visitor, until the end mark comes, a call
fails, or the visitor stops. -/
def scan {σ : Type u} {γ : Type} (B : Backend σ) (dir : DirHandle) (visit : γ → Entry → ForInStep γ)
    (acc : γ) (s : σ) : (γ × Option StorageError) × σ :=
  match _h : B.answer (.readdir dir) s with
  | (.error e, s') => ((acc, some e), s')
  | (.ok entry, s') =>
    if _hend : entry.isEnd then ((acc, none), s')
    else
      match visit acc entry with
      | .done acc => ((acc, none), s')
      | .yield acc => B.scan dir visit acc s'
termination_by B.entriesLeft dir s
decreasing_by exact B.entriesLeft_lt _h (by simpa using _hend)

end Backend

namespace Program

variable {σ : Type u}

/-- The answer of a program on a backend, and the state after it. -/
def run {α : Type} (B : Backend σ) : Program α → σ → α × σ
  | ret a, s => (a, s)
  | call c next, s =>
    let (answer, s) := B.answer c s
    (next answer).run B s
  | scan dir visit start next, s =>
    let ((acc, error), s) := B.scan dir visit start s
    (next acc error).run B s

/-- **A program runs its parts in order.** -/
@[simp] theorem run_bind {α β : Type} (B : Backend σ) (p : Program α) (f : α → Program β)
    (s : σ) : (p.bind f).run B s = (f (p.run B s).1).run B (p.run B s).2 := by
  induction p generalizing s with
  | ret a => rfl
  | call c next ih => simp only [bind, run, ih]
  | scan dir visit start next ih => simp only [bind, run, ih]

end Program
end FlashVolume

import FlashVolume.Storage.Backend
/-!
# Backends with calls that fail on purpose

A call can be armed: the invocation with the given number, counted from the arming, fails with the
given error and does not reach the backend behind. Then the call works again. There is at most
one arming for a call.
-/

namespace FlashVolume

/-- A failure to come: the invocation with number `nth`, counted from 1, fails. -/
structure Arming where
  call : CallName
  nth : Nat
  error : StorageError
deriving DecidableEq, Repr

/-- The state of a backend with the failures to come. -/
structure Armed (σ : Type) where
  inner : σ
  armings : List Arming := []

namespace Armed

variable {σ : Type}

/-- Arms a call, in place of an earlier arming of it. -/
def arm (a : Arming) (s : Armed σ) : Armed σ :=
  { s with armings := a :: s.armings.filter (·.call ≠ a.call) }

/-- Disarms all calls. -/
def disarm (s : Armed σ) : Armed σ :=
  { s with armings := [] }

/-- Counts an invocation: the error that it fails with, if it is the one, and what is still
armed. -/
def count (name : CallName) (s : Armed σ) : Option StorageError × Armed σ :=
  match s.armings.find? (·.call = name) with
  | none => (none, s)
  | some a =>
    let others := s.armings.filter (·.call ≠ name)
    if a.nth ≤ 1 then (some a.error, { s with armings := others })
    else (none, { s with armings := { a with nth := a.nth - 1 } :: others })

/-- The answer of an armed call, or of the backend behind. -/
def answer (B : Backend σ) {α : Type} (c : Call α) (s : Armed σ) :
    Except StorageError α × Armed σ :=
  match s.count c.name with
  | (some e, s) => (.error e, s)
  | (none, s) =>
    let (result, inner) := B.answer c s.inner
    (result, { s with inner := inner })

/-- Counting leaves the backend behind as it is. -/
theorem count_inner (name : CallName) (s : Armed σ) : (s.count name).2.inner = s.inner := by
  unfold count
  split
  · rfl
  · dsimp only
    split <;> rfl

/-- A backend whose calls can be armed. -/
def backend (B : Backend σ) : Backend (Armed σ) where
  answer := answer B
  entriesLeft dir s := B.entriesLeft dir s.inner
  entriesLeft_lt := by
    intro dir s s' entry h hend
    have hinner := s.count_inner (Call.readdir dir).name
    unfold answer at h
    split at h
    · cases h
    · rename_i t ht
      rw [ht] at hinner
      simp only [Prod.mk.injEq] at h
      obtain ⟨h, rfl⟩ := h
      rw [← hinner]
      exact B.entriesLeft_lt (Prod.ext h rfl) hend

end Armed
end FlashVolume

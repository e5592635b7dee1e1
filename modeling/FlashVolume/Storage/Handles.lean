/-!
# Handle tables

What a volume knows about its open files and directories. A handle is the position of its record
in the table; positions are not used again, so no two open handles are the same.
-/

namespace FlashVolume

/-- The records of all handles given out so far; a closed handle has none. -/
structure Handles (α : Type) where
  slots : List (Option α) := []
deriving DecidableEq, Repr, Inhabited

namespace Handles

variable {α : Type}

/-- The handle that comes next. -/
def next (t : Handles α) : Nat :=
  t.slots.length

/-- Gives out the next handle. -/
def add (t : Handles α) (a : α) : Handles α :=
  ⟨t.slots ++ [some a]⟩

/-- The record of a handle. -/
def get? (t : Handles α) (i : Nat) : Option α :=
  t.slots[i]?.join

/-- Changes the record of a handle. -/
def set (t : Handles α) (i : Nat) (a : α) : Handles α :=
  ⟨t.slots.set i (some a)⟩

/-- Takes a handle back. -/
def close (t : Handles α) (i : Nat) : Handles α :=
  ⟨t.slots.set i none⟩

/-- An empty table has no handles. -/
@[simp] theorem get?_empty (i : Nat) : ({} : Handles α).get? i = none := rfl

/-- Closing a handle of an empty table leaves it empty. -/
@[simp] theorem close_empty (i : Nat) : ({} : Handles α).close i = {} := rfl

/-- Handing out a handle moves on to the next. -/
@[simp] theorem next_add (t : Handles α) (a : α) : (t.add a).next = t.next + 1 := by
  simp [next, add]

/-- Setting a handle hands out none. -/
@[simp] theorem next_set (t : Handles α) (i : Nat) (a : α) : (t.set i a).next = t.next := by
  simp [next, set]

/-- Closing a handle does not free its number. -/
@[simp] theorem next_close (t : Handles α) (i : Nat) : (t.close i).next = t.next := by
  simp [next, close]

/-- The next handle has the record it was given out with. -/
@[simp] theorem get?_add_next (t : Handles α) (a : α) : (t.add a).get? t.next = some a := by
  simp [get?, add, next]

/-- Giving out a handle changes no other. -/
theorem get?_add_of_lt {t : Handles α} {a : α} {i : Nat} (h : i < t.next) :
    (t.add a).get? i = t.get? i := by
  simp only [get?, add]
  rw [List.getElem?_append_left h]

/-- A handle that has a record has been given out. -/
theorem lt_next_of_get? {t : Handles α} {i : Nat} {a : α} (h : t.get? i = some a) :
    i < t.next := by
  apply Decidable.byContradiction
  intro hlarge
  have hnone : t.slots[i]? = none := List.getElem?_eq_none (Nat.le_of_not_lt hlarge)
  simp [get?, hnone] at h

/-- A handle has the record it was changed to. -/
theorem get?_set_self {t : Handles α} {i : Nat} {a b : α} (h : t.get? i = some b) :
    (t.set i a).get? i = some a := by
  have hi : i < t.slots.length := lt_next_of_get? h
  simp [get?, set, hi]

/-- Changing a handle changes no other. -/
theorem get?_set_of_ne {t : Handles α} {i j : Nat} {a : α} (h : i ≠ j) :
    (t.set i a).get? j = t.get? j := by
  simp [get?, set, List.getElem?_set_ne h]

/-- Taking a handle back changes no other. -/
theorem get?_close_of_ne {t : Handles α} {i j : Nat} (h : i ≠ j) :
    (t.close i).get? j = t.get? j := by
  simp [get?, close, List.getElem?_set_ne h]

/-- A handle that was taken back has no record. -/
@[simp] theorem get?_close_self (t : Handles α) (i : Nat) : (t.close i).get? i = none := by
  simp only [get?, close, List.getElem?_set_self']
  cases t.slots[i]? <;> rfl

end Handles
end FlashVolume

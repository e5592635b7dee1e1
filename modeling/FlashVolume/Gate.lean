import FlashVolume.Storage.Program
/-!
# Mount gates

Section 4.7 of the specification: `mount`, and the `MountState` of section 3.

A gate mounts the volume at most once. Its state is a flag that may be shared by several gates; a
failed attempt leaves the flag down, so that a later call tries again.

`Gates` is a set of numbered gates: a number that is new is a gate with a flag of its own, and
`share` lets two gates have one flag.
-/

namespace FlashVolume

/-- Whether the volume behind a gate has been mounted. -/
structure MountState where
  mounted : Bool := false
deriving DecidableEq, Repr, Inhabited

namespace MountState

/-- Mounts the volume, unless that has been done. What `statvfs` answers afterwards does not
count. -/
def mount (mountPoint : String) : StateT MountState Program (Except Error Unit) := do
  if (← get).mounted then return .ok ()
  match ← (Operation.request .mount).run with
  | .error e => return .error e
  | .ok () =>
    set (⟨true⟩ : MountState)
    let _ ← (Operation.attempt (.statvfs mountPoint)).run
    return .ok ()

end MountState

/-- Numbered gates. -/
structure Gates where
  /-- The states, some of them shared. -/
  states : List MountState := []
  /-- Which state each gate has, by its index; the latest entry counts. -/
  shares : List (Nat × Nat) := []
deriving DecidableEq, Repr, Inhabited

namespace Gates

/-- The index of a gate's state, and the gates with that state in place. -/
def locate (gates : Gates) (gate : Nat) : Nat × Gates :=
  match gates.shares.lookup gate with
  | some i => (i, gates)
  | none =>
    let i := gates.states.length
    (i, ⟨gates.states ++ [{}], (gate, i) :: gates.shares⟩)

/-- Whether the volume behind a gate has been mounted. -/
def isMounted (gates : Gates) (gate : Nat) : Bool :=
  match gates.shares.lookup gate with
  | some i => (gates.states[i]?.getD {}).mounted
  | none => false

/-- Lets another gate share the state of `gate`. -/
def share (gates : Gates) (gate other : Nat) : Gates :=
  let (i, gates) := gates.locate gate
  { gates with shares := (other, i) :: gates.shares }

/-- Mounts the volume through a gate. -/
def mount (gate : Nat) (mountPoint : String) : StateT Gates Program (Except Error Unit) := do
  let (i, gates) := (← get).locate gate
  let (result, state) ← (MountState.mount mountPoint).run (gates.states[i]?.getD {})
  set { gates with states := gates.states.set i state }
  return result

end Gates
end FlashVolume

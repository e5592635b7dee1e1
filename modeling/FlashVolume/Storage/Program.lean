import FlashVolume.Error.Operation
import FlashVolume.Storage.Call
/-!
# Programs of storage calls

An operation on a volume is a `Program`: a tree whose nodes are storage calls and whose branches
are their answers. A program knows nothing of the volume it runs on; a `Backend` answers the
calls, from a state of its own. So one definition of an operation serves every volume, and a
statement about an operation on *every* volume is a statement about all backends.

Reading a directory to its end has no bound that a program could know. It is therefore one node,
`scan`: the entries are read one by one until the end mark comes, a call fails, or the visitor
stops. A backend bounds the entries that are still to come by a number that each entry makes
smaller, which is why `Backend.scan` ends.
-/

namespace FlashVolume

/-- A program of storage calls. -/
inductive Program (α : Type) : Type 1 where
  /-- The answer. -/
  | ret (a : α)
  /-- A call, and what to do with its answer. -/
  | call {β : Type} (c : Call β) (next : Except StorageError β → Program α)
  /-- The remaining entries of a directory, shown one by one to a visitor, and what to do with
  what the visitor has and the error that stopped the scan, if one did. -/
  | scan {γ : Type} (dir : DirHandle) (visit : γ → Entry → ForInStep γ) (start : γ)
      (next : γ → Option StorageError → Program α)

namespace Program

/-- Runs a program and goes on with its answer. -/
def bind {α β : Type} : Program α → (α → Program β) → Program β
  | ret a, f => f a
  | call c next, f => call c fun answer => (next answer).bind f
  | scan dir visit start next, f => scan dir visit start fun acc error => (next acc error).bind f

instance : Monad Program where
  pure := ret
  bind := bind

/-- A result is a finished program. -/
@[simp] theorem pure_eq {α : Type} (a : α) : (pure a : Program α) = ret a := rfl

/-- One program behind another is `Program.bind`. -/
@[simp] theorem bind_eq {α β : Type} (p : Program α) (f : α → Program β) : p >>= f = p.bind f :=
  rfl

/-- Finishing behind a program changes nothing. -/
@[simp] theorem bind_ret {α : Type} (p : Program α) : p.bind ret = p := by
  induction p with
  | ret a => rfl
  | call c next ih => simp [bind, ih]
  | scan dir visit start next ih => simp [bind, ih]

/-- What follows may be grouped either way. -/
@[simp] theorem bind_bind {α β γ : Type} (p : Program α) (f : α → Program β)
    (g : β → Program γ) : (p.bind f).bind g = p.bind fun a => (f a).bind g := by
  induction p with
  | ret a => rfl
  | call c next ih => simp [bind, ih]
  | scan dir visit start next ih => simp [bind, ih]

instance : LawfulMonad Program := LawfulMonad.mk'
  Program (fun p => bind_ret p) (fun _ _ => rfl) (fun p f g => bind_bind p f g)

end Program

/-- An operation: a program that may fail. -/
abbrev Operation (α : Type) := ExceptT Error Program α

namespace Operation

/-- Makes a call, and answers what it answers. -/
def attempt {α : Type} (c : Call α) : Operation (Except StorageError α) :=
  ExceptT.lift (Program.call c .ret)

/-- Makes a call; its error is the error of the operation. -/
def request {α : Type} (c : Call α) : Operation α :=
  ExceptT.mk (Program.call c fun answer => .ret (answer.mapError Error.ofStorage))

/-- Makes a call; `fault` says what its error is to the operation. -/
def requestOr {α : Type} (fault : StorageError → Error) (c : Call α) : Operation α :=
  ExceptT.mk (Program.call c fun answer => .ret (answer.mapError fault))

/-- Runs an operation, and answers how it went; an error does not stop what follows. -/
def observe {α : Type} (p : Operation α) : Operation (Except Error α) :=
  ExceptT.lift p.run

/-- A program as an operation that does not fail. -/
def ofProgram {α : Type} (p : Program α) : Operation α :=
  ExceptT.lift p

/-- An answer that needs no call. -/
def ofExcept {α : Type} (answer : Except Error α) : Operation α :=
  ExceptT.mk (.ret answer)

end Operation
end FlashVolume

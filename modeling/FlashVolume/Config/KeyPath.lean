import FlashVolume.Config.Setting
import FlashVolume.Text.Numeral
/-!
# Key paths

Section 10.5 of the specification: what `load` takes the names of settings for.

A key may reach into a value: `a.b` names what a table `a` holds under `b`, and `a[3]` what a list
`a` holds at position 3.

```text
path  = name ( "." name | "[" blank [ "-" ] digits blank "]" )*
name  = a run of letters, digits, " ", "_" and "-"
blank = a run of " " and tabs
```

A key that is no path names itself. A negative position counts from the end of the list. Setting
what lies on a path makes tables and lists of what stands on the way; of two values for a name the
later counts, and a table adds to the one that is there.
-/

namespace FlashVolume

/-- A step into a value. -/
inductive KeyStep where
  | child (name : String)
  | item (index : Int)
deriving DecidableEq, Repr

/-- A key, as a name and the steps from there. -/
structure KeyPath where
  name : String
  steps : List KeyStep := []
deriving DecidableEq, Repr

namespace KeyPath

/-- What a name consists of. -/
def isNameChar (c : Char) : Bool :=
  c.isAlphanum || c = ' ' || c = '_' || c = '-'

/-- Reads a name, and answers it with what follows. -/
def name? (cs : List Char) : Option (String × List Char) :=
  let name := cs.takeWhile isNameChar
  if name.isEmpty then none else some (String.ofList name, cs.dropWhile isNameChar)

/-- Reads a position up to the closing bracket, and answers it with what follows. -/
def index? (cs : List Char) : Option (Int × List Char) := do
  let isSpace := fun c : Char => c = ' ' || c = '\t'
  let cs := cs.dropWhile isSpace
  let (sign, cs) := if cs.head? = some '-' then (['-'], cs.tail) else ([], cs)
  let index ← Text.signed64? (String.ofList (sign ++ cs.takeWhile Char.isDigit))
  match (cs.dropWhile Char.isDigit).dropWhile isSpace with
  | ']' :: rest => some (index, rest)
  | _ => none

/-- Reads steps up to the end; each takes a character at least, so as many as there are characters
are enough. -/
def steps? : Nat → List Char → Option (List KeyStep)
  | _, [] => some []
  | fuel + 1, '.' :: cs => do
    let (name, rest) ← name? cs
    return .child name :: (← steps? fuel rest)
  | fuel + 1, '[' :: cs => do
    let (index, rest) ← index? cs
    return .item index :: (← steps? fuel rest)
  | _, _ => none

/-- The path that a key writes, if it writes one. -/
def parse? (key : String) : Option KeyPath := do
  let (name, rest) ← name? key.toList
  return ⟨name, ← steps? rest.length rest⟩

/-- The path of a key. -/
def ofKey (key : String) : KeyPath :=
  (parse? key).getD ⟨key, []⟩

/-- No list has this many items. -/
def lengthBound : Nat := 0x1000000

/-- The position in a list that an index names: from the start, or from the end if it is negative.
The position may be behind the end, but not before the start. -/
def position? (index : Int) (length : Nat) : Option Nat :=
  let position := if index < 0 then index + length else index
  if 0 ≤ position ∧ position.toNat < lengthBound then some position.toNat else none

/-- **A position that counts from the end is in the list.** -/
theorem lt_of_position? {index : Int} {length n : Nat} (hneg : index < 0)
    (h : position? index length = some n) : n < length := by
  obtain ⟨⟨hstart, _⟩, hn⟩ := Option.ite_none_right_eq_some.1 h
  rw [← Option.some.inj hn]
  rw [if_pos hneg] at hstart ⊢
  omega

/-- A list with what there is at a position replaced. Nothing stands between its end and a position
behind it. -/
def putItem (items : List Setting) (position : Nat) (value : Setting) : List Setting :=
  (items ++ List.replicate (position + 1 - items.length) Setting.null).set position value

/-- **What has been put at a position is there.** -/
theorem getElem?_putItem (items : List Setting) (position : Nat) (value : Setting) :
    (putItem items position value)[position]? = some value := by
  have hlt : position < (items ++
      List.replicate (position + 1 - items.length) Setting.null).length := by
    rw [List.length_append, List.length_replicate]
    omega
  rw [putItem, List.getElem?_set_self hlt]

/-- **The other items stay.** -/
theorem getElem?_putItem_of_ne {items : List Setting} {position i : Nat} (h : i ≠ position)
    (hi : i < items.length) (value : Setting) :
    (putItem items position value)[i]? = items[i]? := by
  rw [putItem, List.getElem?_set_ne (Ne.symm h), List.getElem?_append_left hi]

/-- What a place holds after a value has been set at the end of steps from it. What stands on the
way and is no table, or no list, gives way to one. -/
def follow? (value : Setting) : List KeyStep → Option Setting → Option Setting
  | [], old => some (.overlay old value)
  | .child name :: steps, old => do
    let entries := (old.getD Setting.null).entries
    return .table (Setting.put entries name (← follow? value steps (entries.lookup name)))
  | .item index :: steps, old => do
    let items := (old.getD Setting.null).items
    let position ← position? index items.length
    let item ← if steps.isEmpty then some value else follow? value steps items[position]?
    return .list (putItem items position item)

/-- Sets the value of a key among settings; `none` if its path leads to a position that no list
has. -/
def assign? (settings : List (String × Setting)) (key : String) (value : Setting) :
    Option (List (String × Setting)) := do
  let path := ofKey key
  return Setting.put settings path.name (← follow? value path.steps (settings.lookup path.name))

end KeyPath
end FlashVolume

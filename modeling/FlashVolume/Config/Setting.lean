import FlashVolume.Config.Basic
import FlashVolume.Decimal.Reading
/-!
# Values of settings

Section 10.5 of the specification: what `load` makes of a value for an option.

A setting is written as a truth value, an integer, a floating point number or a text, and is read
as what its key needs:

| written as | as a size | as a flag | as a text |
| --- | --- | --- | --- |
| truth value | 1 or 0 | itself | `true` or `false` |
| integer | itself, unless negative | whether it is not 0 | its digits |
| number | rounded, a half away from zero | whether it is not 0 | its shortest digits |
| text | a word or an unsigned numeral | a word, `1` or `0` | itself |
| nothing, a list, a table | refused | refused | refused |

The words are `true`, `on` and `yes`, and `false`, `off` and `no`, in upper or lower case.

A table holds each of its names once. Laid over another table, it adds what it holds to it.
-/

namespace FlashVolume

/-- The value of a setting, as it is written. -/
inductive Setting where
  | null
  | bool (value : Bool)
  | int (value : Int)
  | float (value : Binary64)
  | text (value : String)
  | list (items : List Setting)
  | table (entries : List (String × Setting))
deriving Inhabited

namespace Setting

/-- The value of a variable of the environment: a truth value, a 64-bit integer or a number if
the text is one, and the text itself otherwise. -/
def ofVariable (s : String) : Setting :=
  let word := s.toLower
  if word = "true" then bool true
  else if word = "false" then bool false
  else
    match Text.signed64? s, Binary64.ofText? s with
    | some n, _ => int n
    | none, some x => float x
    | none, none => text s

/-! ## Tables -/

/-- Puts a value for a name, in place of the one it had. -/
def put {α β : Type} [DecidableEq α] (entries : List (α × β)) (name : α) (value : β) :
    List (α × β) :=
  if entries.any (·.1 = name) then entries.map fun e => if e.1 = name then (name, value) else e
  else entries ++ [(name, value)]

/-- **What has been put is found.** -/
theorem lookup_put {α β : Type} [DecidableEq α] (entries : List (α × β)) (name : α) (value : β) :
    (put entries name value).lookup name = some value := by
  unfold put
  split
  case isTrue hany =>
    induction entries with
    | nil => cases hany
    | cons entry entries ih =>
      obtain ⟨key, held⟩ := entry
      by_cases hkey : key = name
      · simp [hkey]
      · have hrest : entries.any (·.1 = name) = true := by simpa [hkey] using hany
        have hbeq : (name == key) = false := beq_eq_false_iff_ne.2 (Ne.symm hkey)
        simpa [hkey, List.lookup_cons, hbeq] using ih hrest
  case isFalse hany =>
    have hnone : entries.lookup name = none := by
      rw [List.lookup_eq_none_iff]
      intro e he
      have hne : e.1 ≠ name := fun heq =>
        hany (List.any_eq_true.2 ⟨e, he, decide_eq_true heq⟩)
      simpa [beq_eq_false_iff_ne] using Ne.symm hne
    simp [List.lookup_append, hnone]

/-- **The other names keep their values.** -/
theorem lookup_put_of_ne {α β : Type} [DecidableEq α] (entries : List (α × β)) {name other : α}
    (h : other ≠ name) (value : β) :
    (put entries name value).lookup other = entries.lookup other := by
  have hother : (other == name) = false := beq_eq_false_iff_ne.2 h
  unfold put
  split
  case isTrue hany =>
    clear hany
    induction entries with
    | nil => rfl
    | cons entry entries ih =>
      obtain ⟨key, held⟩ := entry
      by_cases hkey : key = name
      · simp [hkey, List.lookup_cons, hother, ih]
      · simp [hkey, List.lookup_cons, ih]
  case isFalse => simp [List.lookup_append, List.lookup_cons, hother]

/-- **No name comes twice.** -/
theorem nodup_put {α β : Type} [DecidableEq α] {entries : List (α × β)}
    (h : (entries.map (·.1)).Nodup) (name : α) (value : β) :
    ((put entries name value).map (·.1)).Nodup := by
  unfold put
  split
  case isTrue =>
    have hnames : (entries.map fun e => if e.1 = name then (name, value) else e).map (·.1) =
        entries.map (·.1) := by
      rw [List.map_map]
      refine List.map_congr_left fun e _ => ?_
      by_cases he : e.1 = name <;> simp [he]
    rw [hnames]
    exact h
  case isFalse hnew =>
    rw [List.map_append, List.nodup_append]
    refine ⟨h, by simp, ?_⟩
    rintro known hknown _ hlast rfl
    obtain rfl : known = name := by simpa using hlast
    obtain ⟨e, he, rfl⟩ := List.mem_map.1 hknown
    exact hnew (List.any_eq_true.2 ⟨e, he, decide_eq_true rfl⟩)

/-- Entries, each name once: of those for one name the last counts. -/
def lastEntries {α β : Type} [DecidableEq α] (entries : List (α × β)) : List (α × β) :=
  entries.foldl (fun entries (name, value) => put entries name value) []

/-- **Of what has been gathered no name comes twice.** -/
theorem nodup_lastEntries {α β : Type} [DecidableEq α] (entries : List (α × β)) :
    ((lastEntries entries).map (·.1)).Nodup := by
  have hfold : ∀ known : List (α × β), (known.map (·.1)).Nodup →
      ((entries.foldl (fun known (name, value) => put known name value) known).map
        (·.1)).Nodup := by
    induction entries with
    | nil => exact fun _ h => h
    | cons entry entries ih => exact fun _ h => ih _ (nodup_put h entry.1 entry.2)
  exact hfold [] List.nodup_nil

/-- The table that a file writes with these entries. -/
def ofEntries (entries : List (String × Setting)) : Setting :=
  table (lastEntries entries)

/-- What a table holds; nothing else holds entries. -/
def entries : Setting → List (String × Setting)
  | table entries => entries
  | _ => []

/-- What a list holds; nothing else holds items. -/
def items : Setting → List Setting
  | list items => items
  | _ => []

mutual

/-- What a name holds after a value has been set where there was another. A table is laid over
what was there, anything else takes its place. -/
def overlay (old : Option Setting) : Setting → Setting
  | table entries => overlayEntries (old.getD (table [])) entries
  | value => value

/-- What a name holds after entries have been laid over it. -/
def overlayEntries (old : Setting) : List (String × Setting) → Setting
  | [] => old
  | (name, value) :: rest =>
    overlayEntries (table (put old.entries name (overlay (old.entries.lookup name) value))) rest

end

/-! ## Reading -/

/-- A truth value that is written as a word. -/
def flagWord? (word : String) : Option Bool :=
  if word ∈ ["true", "on", "yes"] then some true
  else if word ∈ ["false", "off", "no"] then some false
  else none

/-- The value as a size, for the setting `key`. -/
def toSize (key : String) : Setting → Except ConfigError UInt64
  | bool b => .ok (if b then 1 else 0)
  | int n =>
    if n < 0 then .error (.wrongType key "an unsigned 64 bit or less integer")
    else .ok (UInt64.ofNat n.toNat)
  | float x => .ok x.toUnsigned64
  | text s =>
    match flagWord? s.toLower, Text.unsigned64? s with
    | some b, _ => .ok (if b then 1 else 0)
    | none, some n => .ok (UInt64.ofNat n)
    | none, none => .error (.wrongType key "an integer")
  | null => .error (.wrongType key "an integer")
  | list _ => .error (.wrongType key "an integer")
  | table _ => .error (.wrongType key "an integer")

/-- The value as a flag, for the setting `key`. -/
def toFlag (key : String) : Setting → Except ConfigError Bool
  | bool b => .ok b
  | int n => .ok (n ≠ 0)
  | float x => .ok (!x.isZero)
  | text s =>
    if s = "1" then .ok true
    else if s = "0" then .ok false
    else
      match flagWord? s.toLower with
      | some b => .ok b
      | none => .error (.wrongType key "a boolean")
  | null => .error (.wrongType key "a boolean")
  | list _ => .error (.wrongType key "a boolean")
  | table _ => .error (.wrongType key "a boolean")

/-- The value as a text, for the setting `key`. -/
def toText (key : String) : Setting → Except ConfigError String
  | bool b => .ok (if b then "true" else "false")
  | int n => .ok (toString n)
  | float x => .ok x.toText
  | text s => .ok s
  | null => .error (.wrongType key "a string")
  | list _ => .error (.wrongType key "a string")
  | table _ => .error (.wrongType key "a string")

end Setting
end FlashVolume

import FlashVolume.Config.Toml.Date
import FlashVolume.Config.Toml.Number
/-!
# Values of TOML

```text
value  = basic | literal | lines | "true" | "false" | moment | number | list | table
list   = "[" [ value ( "," value )* [ "," ] ] "]"
table  = "{" [ names "=" value ( "," names "=" value )* ] "}"
```

There may be blanks between the parts, and in a list line breaks and comments too. The first of
several names leads to a table that such names have made, and no other value stands there. A table
has each name once.

A table whose first name is `momentName` is a moment: the text at that name writes it, and what
else the table holds does not count.
-/

namespace FlashVolume
namespace Toml

/-- A value as it is written. -/
inductive Value where
  | setting (value : Setting)
  | moment (text : String)
  | list (items : List Value)
  /-- A table; `byNames` says whether names of keys have led through it, and made it. -/
  | table (byNames : Bool) (entries : List (String × Value))
deriving Inhabited

namespace Value

/-- Adds an entry for the names of a key. -/
def assign? (value : Value) : List (String × Value) → List String → Option (List (String × Value))
  | _, [] => none
  | entries, [name] => some (entries ++ [(name, value)])
  | entries, name :: names =>
    match entries.lookup name with
    | none => do return entries ++ [(name, .table true (← assign? value [] names))]
    | some (.table true inner) => do
      let inner ← assign? value inner names
      let before := entries.takeWhile fun entry => entry.1 ≠ name
      return before ++ (name, .table true inner) :: entries.drop (before.length + 1)
    | some _ => none

/-- An entry is put in the place of the one with its name. -/
theorem map_fst_replace {entries : List (String × Value)} {name : String} {old : Value}
    (h : entries.lookup name = some old) (value : Value) :
    (entries.takeWhile (fun entry => entry.1 ≠ name) ++ (name, value) ::
      entries.drop ((entries.takeWhile fun entry => entry.1 ≠ name).length + 1)).map (·.1) =
        entries.map (·.1) := by
  induction entries with
  | nil => cases h
  | cons entry entries ih =>
    obtain ⟨key, held⟩ := entry
    by_cases hname : key = name
    · simp [hname]
    · have hrest : entries.lookup name = some old := by
        simpa [List.lookup_cons, beq_eq_false_iff_ne.2 (Ne.symm hname)] using h
      simpa [hname] using ih hrest

/-- **No name is lost or moved** when an entry is added. -/
theorem names_of_assign? {value : Value} {entries more : List (String × Value)}
    {names : List String} (h : assign? value entries names = some more) :
    entries.map (·.1) <+: more.map (·.1) := by
  unfold assign? at h
  split at h
  case h_1 => cases h
  case h_2 => cases h; simp
  case h_3 =>
    split at h
    case h_1 =>
      obtain ⟨_, _, ⟨⟩⟩ := Option.bind_eq_some_iff.1 h
      simp
    case h_2 inner hlookup =>
      obtain ⟨_, _, ⟨⟩⟩ := Option.bind_eq_some_iff.1 h
      simp only [map_fst_replace hlookup, List.prefix_rfl]
    case h_3 => cases h

/-- The first name of a table that is a moment. -/
def momentName : String := "$__toml_private_datetime"

/-- The moment that a value writes, if it is a text and writes one. -/
def moment? : Value → Option String
  | setting (.text written) =>
    match Toml.moment? written.toList with
    | some (text, []) => some text
    | _ => none
  | _ => none

mutual

/-- The setting that is written. -/
def setting? : Value → Option Setting
  | setting value => some value
  | moment text => some (.text text)
  | list items => (settings? items).map .list
  | table _ [] => some (.table [])
  | table _ ((name, value) :: rest) =>
    if name = momentName then value.moment?.map .text
    else if ((name, value) :: rest).map (·.1) |>.Nodup then
      do return .table ((name, ← setting? value) :: (← entries? rest))
    else none

/-- The settings in a list. -/
def settings? : List Value → Option (List Setting)
  | [] => some []
  | value :: rest => do return (← setting? value) :: (← settings? rest)

/-- The settings in a table. -/
def entries? : List (String × Value) → Option (List (String × Setting))
  | [] => some []
  | (name, value) :: rest => do return (name, ← setting? value) :: (← entries? rest)

end

/-- **The names of a table stay as they are written.** -/
theorem names_of_entries? {entries : List (String × Value)} {settings : List (String × Setting)}
    (h : entries? entries = some settings) : settings.map (·.1) = entries.map (·.1) := by
  induction entries generalizing settings with
  | nil => cases h; rfl
  | cons entry entries ih =>
    obtain ⟨_, _, h⟩ := Option.bind_eq_some_iff.1 h
    obtain ⟨rest, hrest, ⟨⟩⟩ := Option.bind_eq_some_iff.1 h
    simp [ih hrest]

/-- **A table has each name once.** -/
theorem nodup_of_setting? {byNames : Bool} {entries : List (String × Value)}
    {settings : List (String × Setting)}
    (h : setting? (table byNames entries) = some (.table settings)) :
    (settings.map (·.1)).Nodup := by
  cases entries with
  | nil => cases h; simp
  | cons entry entries =>
    obtain ⟨name, value⟩ := entry
    unfold setting? at h
    split at h
    · obtain ⟨_, _, hmoment⟩ := Option.map_eq_some_iff.1 h
      cases hmoment
    · obtain ⟨hnodup, h⟩ := Option.ite_none_right_eq_some.1 h
      obtain ⟨_, _, h⟩ := Option.bind_eq_some_iff.1 h
      obtain ⟨rest, hrest, ⟨⟩⟩ := Option.bind_eq_some_iff.1 h
      rwa [List.map_cons, names_of_entries? hrest]

end Value

/-! ## Reading -/

/-- What follows blanks, line breaks and comments. -/
def skipLines? : Bool → List Char → Option (List Char)
  | _, [] => some []
  | true, c :: cs =>
    if c = '\n' then skipLines? false cs else if isPrintable c then skipLines? true cs else none
  | false, c :: cs =>
    if isSpace c ∨ c = '\n' then skipLines? false cs
    else if c = '#' then skipLines? true cs
    else some (c :: cs)

/-- Blanks, line breaks and comments are skipped from where they start. -/
theorem skipLines?_leaves (inComment : Bool) (cs : List Char) :
    Leaves id cs (skipLines? inComment cs) := by
  induction cs generalizing inComment with
  | nil => cases inComment <;> exact leaves_some (List.suffix_refl [])
  | cons c cs ih =>
    have hrest : ∀ inComment, Leaves id (c :: cs) (skipLines? inComment cs) :=
      fun inComment => (ih inComment).behind (List.suffix_cons c cs)
    cases inComment with
    | true => exact .ite (hrest false) (.ite (hrest true) leaves_none)
    | false => exact .ite (hrest false) (.ite (hrest true) (leaves_some (List.suffix_refl _)))

/-- **A comment does not count** up to the end of its line. -/
theorem skipLines?_comment {comment : List Char}
    (h : ∀ c ∈ comment, c ≠ '\n' ∧ isPrintable c = true)
    (cs : List Char) : skipLines? false ('#' :: comment ++ '\n' :: cs) = skipLines? false cs := by
  have hinside : skipLines? true (comment ++ '\n' :: cs) = skipLines? false cs := by
    induction comment with
    | nil => simp [skipLines?]
    | cons c comment ih =>
      obtain ⟨hbreak, hprintable⟩ := h c (by simp)
      simpa [skipLines?, hbreak, hprintable] using ih fun d hd => h d (by simp [hd])
  simpa [skipLines?, isSpace] using hinside

/-- Reads a value that consists of one word, and answers it with what follows. -/
def word? (cs : List Char) : Option (Value × List Char) :=
  match moment? cs with
  | some (text, rest) => some (.moment text, rest)
  | none =>
    let isPart := fun c : Char => isBare c || c = '+' || c = '.'
    let word := cs.takeWhile isPart
    let value :=
      if word = ['t', 'r', 'u', 'e'] then some (.bool true)
      else if word = ['f', 'a', 'l', 's', 'e'] then some (.bool false)
      else number? word
    value.map fun value => (.setting value, cs.dropWhile isPart)

/-- What follows a value of one word stands behind it. -/
theorem word?_leaves (cs : List Char) : Leaves Prod.snd cs (word? cs) := by
  unfold word?
  split
  case h_1 text rest heq => exact leaves_some (moment?_leaves cs _ heq)
  case h_2 => exact leaves_map fun _ => List.dropWhile_suffix _

mutual

/-- Reads a value, and answers it with what follows. -/
def value? : Nat → List Char → Option (Value × List Char)
  | 0, _ => none
  | fuel + 1, cs =>
    match cs with
    | '"' :: cs => (quoted? '"' cs).map fun (text, rest) => (.setting (.text text), rest)
    | '\'' :: cs => (quoted? '\'' cs).map fun (text, rest) => (.setting (.text text), rest)
    | '[' :: cs => (items? fuel cs).map fun (items, rest) => (.list items, rest)
    | '{' :: cs =>
      match cs.dropWhile isSpace with
      | '}' :: rest => some (.table false [], rest)
      | cs => (entries? fuel [] cs).map fun (entries, rest) => (.table false entries, rest)
    | cs => word? cs
termination_by structural fuel => fuel

/-- Reads the values of a list up to its closing bracket, and answers them with what follows. -/
def items? : Nat → List Char → Option (List Value × List Char)
  | 0, _ => none
  | fuel + 1, cs => do
    match ← skipLines? false cs with
    | ']' :: rest => return ([], rest)
    | cs =>
      let (value, rest) ← value? fuel cs
      match ← skipLines? false rest with
      | ']' :: rest => return ([value], rest)
      | ',' :: rest =>
        let (values, rest) ← items? fuel rest
        return (value :: values, rest)
      | _ => none
termination_by structural fuel => fuel

/-- Reads the entries of a table up to its closing brace, and answers them behind those that are
known with what follows. -/
def entries? : Nat → List (String × Value) → List Char → Option (List (String × Value) × List Char)
  | 0, _, _ => none
  | fuel + 1, known, cs => do
    let (names, rest) ← names? cs.length cs
    let (value, rest) ← value? fuel ((← char? '=' rest).dropWhile isSpace)
    let known ← value.assign? known names
    match rest.dropWhile isSpace with
    | '}' :: rest => return (known, rest)
    | ',' :: rest => entries? fuel known (rest.dropWhile isSpace)
    | _ => none
termination_by structural fuel => fuel

end

mutual

/-- **A value is read from the start,** and what it leaves follows it. -/
theorem value?_leaves (fuel : Nat) (cs : List Char) : Leaves Prod.snd cs (value? fuel cs) := by
  cases fuel with
  | zero => exact leaves_none
  | succ fuel =>
    unfold value?
    split
    case h_1 cs => exact ((quoted?_leaves '"' cs).behind (List.suffix_cons '"' cs)).map fun _ => rfl
    case h_2 cs =>
      exact ((quoted?_leaves '\'' cs).behind (List.suffix_cons '\'' cs)).map fun _ => rfl
    case h_3 cs => exact ((items?_leaves fuel cs).behind (List.suffix_cons '[' cs)).map fun _ => rfl
    case h_4 cs =>
      refine .behind ?_ ((List.dropWhile_suffix isSpace).trans (List.suffix_cons _ cs))
      split
      case h_1 rest heq => exact heq ▸ leaves_some (List.suffix_cons _ rest)
      case h_2 => exact (entries?_leaves fuel [] _).map fun _ => rfl
    case h_5 => exact word?_leaves cs

/-- What follows the items of a list stands behind its closing bracket. -/
theorem items?_leaves (fuel : Nat) (cs : List Char) : Leaves Prod.snd cs (items? fuel cs) := by
  cases fuel with
  | zero => exact leaves_none
  | succ fuel =>
    refine (skipLines?_leaves false cs).bind fun rest => ?_
    split
    case h_1 rest => exact leaves_some (List.suffix_cons ']' rest)
    case h_2 =>
      refine (value?_leaves fuel _).bind fun ⟨value, rest⟩ => ?_
      refine (skipLines?_leaves false rest).bind fun rest => ?_
      split
      case h_1 rest => exact leaves_some (List.suffix_cons ']' rest)
      case h_2 rest =>
        exact .behind (.bind (items?_leaves fuel rest) fun _ => leaves_some (List.suffix_refl _))
          (List.suffix_cons ',' rest)
      case h_3 => exact leaves_none

/-- What follows the entries of a table stands behind its closing brace. -/
theorem entries?_leaves (fuel : Nat) (known : List (String × Value)) (cs : List Char) :
    Leaves Prod.snd cs (entries? fuel known cs) := by
  cases fuel with
  | zero => exact leaves_none
  | succ fuel =>
    refine (names?_leaves _ cs).bind fun ⟨names, rest⟩ => ?_
    refine (char?_leaves '=' rest).bind fun rest => ?_
    refine ((value?_leaves fuel _).behind (List.dropWhile_suffix isSpace)).bind
      fun ⟨value, rest⟩ => leaves_bind fun known => .behind ?_ (List.dropWhile_suffix isSpace)
    dsimp only
    split
    case h_1 rest heq => exact heq ▸ leaves_some (List.suffix_cons _ rest)
    case h_2 rest heq =>
      refine heq ▸ (entries?_leaves fuel known _).behind ?_
      exact (List.dropWhile_suffix isSpace).trans (List.suffix_cons ',' rest)
    case h_3 => exact leaves_none

end

end Toml
end FlashVolume

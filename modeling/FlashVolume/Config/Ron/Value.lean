import FlashVolume.Config.Ron.Number
import FlashVolume.Config.Ron.Text
/-!
# RON settings files

Section 10.5 of the specification: what `load` reads in `fsu.ron`.

```text
file   = feature* value
value  = "true" | "false" | "None" | "Some" "(" value [ "," ] ")" | "()" | number | text | character
       | [ name ] "(" members ")" | [ name ] "(" values ")" | name
       | "[" values "]" | "{" entries "}"
member = name ":" value                  entry = value ":" value
feature = "#" "!" "[" "enable" "(" names ")" "]"
```

Parts are separated by commas, and a comma may follow the last. `Some` of a value is the value; the
feature `implicit_some` lets it stand without parentheses. What has no content is null.

The key of an entry is a text or a character. An entry with another key can be read, but makes
what it belongs to unfit for a setting, and so what holds that; but of two values for one key only
the later counts. A text and a character are different keys, even if they name the same entry: then
that of the text counts.

The settings of a file are the members or the entries of the value that it holds; a file with any
other value has none.
-/

namespace FlashVolume
namespace Ron

/-- The key of an entry. -/
inductive Key where
  | character (c : Char)
  | text (s : String)
deriving DecidableEq, Repr

/-- The name of the entry of a key. -/
def Key.name : Key → String
  | character c => String.singleton c
  | text s => s

/-- Whether a key is a text. -/
def Key.isText : Key → Bool
  | character _ => false
  | text _ => true

/-- The table of entries, if each has a key, and the last for each key a value. -/
def tableOf? (entries : List (Option Key × Option Setting)) : Option Setting := do
  let last := Setting.lastEntries entries
  let (texts, characters) := last.partition fun (key, _) => key.any Key.isText
  return .ofEntries (← (characters ++ texts).mapM fun (key, value) =>
    return ((← key).name, ← value))

/-- The list of values, if each of them is a setting. -/
def listOf? (values : List (Option Setting)) : Option Setting :=
  (values.mapM id).map .list

/-- **A list is a setting if all its values are.** -/
theorem listOf?_map_some (values : List Setting) :
    listOf? (values.map some) = some (.list values) := by
  have hsome : (values.map some).mapM id = some values := by
    induction values with
    | nil => rfl
    | cons value values ih => simp [ih]
  rw [listOf?, hsome]
  rfl

/-- **A list with a value that is no setting is none.** -/
theorem listOf?_of_mem {values : List (Option Setting)} (h : none ∈ values) :
    listOf? values = none := by
  have hnone : values.mapM id = none := by
    induction values with
    | nil => cases h
    | cons value values ih =>
      cases value with
      | none => rfl
      | some value => simp [ih (by simpa using h)]
  rw [listOf?, hnone]
  rfl

/-- Whether members stand behind an opening parenthesis, and not values. -/
def isMember (cs : List Char) : Bool :=
  match name? cs with
  | some (_, rest) => ((blank? rest).bind List.head?).any (· = ':')
  | none => false

/-- What follows a comma and the blanks around it, if there is one, and the blanks otherwise. -/
def comma? (cs : List Char) : Option (Bool × List Char) := do
  match ← blank? cs with
  | ',' :: rest => return (true, ← blank? rest)
  | rest => return (false, rest)

/-- What follows a comma stands behind it and the blanks after it. -/
theorem comma?_leaves (cs : List Char) : Leaves Prod.snd cs (comma? cs) := by
  refine (blank?_leaves cs).bind fun rest => ?_
  split
  case h_1 rest =>
    exact .behind (.bind (blank?_leaves rest) fun _ => leaves_some (List.suffix_refl _))
      (List.suffix_cons ',' rest)
  case h_2 => exact leaves_some (List.suffix_refl _)

mutual

/-- Reads a value, and answers it with what follows. The value is `none` if it is unfit for a
setting. -/
def value? (bareSome : Bool) : Nat → List Char → Option (Option Setting × List Char)
  | 0, _ => none
  | fuel + 1, cs =>
    let word := String.ofList (cs.takeWhile isNameChar)
    let rest := cs.dropWhile isNameChar
    if word = "true" then some (some (.bool true), rest)
    else if word = "false" then some (some (.bool false), rest)
    else if word = "None" then some (some .null, rest)
    else if word = "inf" then some (some (.float (.infinite false)), rest)
    else if word = "NaN" then some (some (.float .notANumber), rest)
    else if word = "Some" then do
      match ← blank? rest with
      | '(' :: rest =>
        let (value, rest) ← value? bareSome fuel (← blank? rest)
        match ← comma? rest with
        | (_, ')' :: rest) => return (value, rest)
        | _ => none
      | rest => if bareSome then value? bareSome fuel rest else none
    else
      match cs with
      | '(' :: ')' :: rest => some (some .null, rest)
      | '-' :: 'i' :: 'n' :: 'f' :: rest => some (some (.float (.infinite true)), rest)
      | cs =>
        match name? cs with
        | some (_, rest) => do
          match ← blank? rest with
          | '(' :: rest => structure? bareSome fuel (← blank? rest)
          | rest => return (some .null, rest)
        | none =>
          match cs with
          | '(' :: rest => do structure? bareSome fuel (← blank? rest)
          | '[' :: rest => do
            let (values, rest) ← values? bareSome fuel ']' (← blank? rest)
            return (listOf? values, rest)
          | '{' :: rest => do
            let (entries, rest) ← entries? bareSome fuel (← blank? rest)
            return (tableOf? entries, rest)
          | '\'' :: _ =>
            (character? cs).map fun (c, rest) => (some (.text (String.singleton c)), rest)
          | cs =>
            match string? cs with
            | some (text, rest) => some (some (.text text), rest)
            | none => (number? cs).map fun (number, rest) => (some number, rest)
termination_by structural fuel => fuel

/-- Reads what parentheses hold behind the opening one, and answers it with what follows. -/
def structure? (bareSome : Bool) : Nat → List Char → Option (Option Setting × List Char)
  | 0, _ => none
  | fuel + 1, cs =>
    if isMember cs then do
      let (members, rest) ← members? bareSome fuel cs
      return (tableOf? members, rest)
    else do
      let (values, rest) ← values? bareSome fuel ')' cs
      return (listOf? values, rest)
termination_by structural fuel => fuel

/-- Reads values up to a closing character, and answers them with what follows. -/
def values? (bareSome : Bool) : Nat → Char → List Char → Option (List (Option Setting) × List Char)
  | 0, _, _ => none
  | fuel + 1, close, cs =>
    if cs.head? = some close then some ([], cs.tail)
    else do
      let (value, rest) ← value? bareSome fuel cs
      match ← comma? rest with
      | (true, rest) =>
        let (values, rest) ← values? bareSome fuel close rest
        return (value :: values, rest)
      | (false, rest) => if rest.head? = some close then some ([value], rest.tail) else none
termination_by structural fuel => fuel

/-- Reads members up to the closing parenthesis, and answers them with what follows. -/
def members? (bareSome : Bool) :
    Nat → List Char → Option (List (Option Key × Option Setting) × List Char)
  | 0, _ => none
  | fuel + 1, cs =>
    match cs with
    | ')' :: rest => some ([], rest)
    | cs => do
      let (name, rest) ← name? cs
      let (value, rest) ← assigned? bareSome fuel rest
      match ← comma? rest with
      | (true, rest) =>
        let (members, rest) ← members? bareSome fuel rest
        return ((some (.text name), value) :: members, rest)
      | (false, ')' :: rest) => return ([(some (.text name), value)], rest)
      | _ => none
termination_by structural fuel => fuel

/-- Reads entries up to the closing brace, and answers them with what follows. -/
def entries? (bareSome : Bool) :
    Nat → List Char → Option (List (Option Key × Option Setting) × List Char)
  | 0, _ => none
  | fuel + 1, cs =>
    match cs with
    | '}' :: rest => some ([], rest)
    | cs => do
      let (key, rest) ← key? bareSome fuel cs
      let (value, rest) ← assigned? bareSome fuel rest
      match ← comma? rest with
      | (true, rest) =>
        let (entries, rest) ← entries? bareSome fuel rest
        return ((key, value) :: entries, rest)
      | (false, '}' :: rest) => return ([(key, value)], rest)
      | _ => none
termination_by structural fuel => fuel

/-- Reads the key of an entry, and answers it with what follows. -/
def key? (bareSome : Bool) : Nat → List Char → Option (Option Key × List Char)
  | 0, _ => none
  | fuel + 1, cs =>
    match character? cs, string? cs with
    | some (c, rest), _ => some (some (.character c), rest)
    | none, some (text, rest) => some (some (.text text), rest)
    | none, none => (value? bareSome fuel cs).map fun (_, rest) => (none, rest)
termination_by structural fuel => fuel

/-- Reads a colon and a value, and answers the value with what follows. -/
def assigned? (bareSome : Bool) : Nat → List Char → Option (Option Setting × List Char)
  | 0, _ => none
  | fuel + 1, cs => do
    match ← blank? cs with
    | ':' :: rest => value? bareSome fuel (← blank? rest)
    | _ => none
termination_by structural fuel => fuel

end

mutual

/-- **A value is read from the start,** and what it leaves follows it. -/
theorem value?_leaves (bareSome : Bool) (fuel : Nat) (cs : List Char) :
    Leaves Prod.snd cs (value? bareSome fuel cs) := by
  cases fuel with
  | zero => exact leaves_none
  | succ fuel =>
    have hword := List.dropWhile_suffix isNameChar (l := cs)
    refine .ite (leaves_some hword) (.ite (leaves_some hword) (.ite (leaves_some hword)
      (.ite (leaves_some hword) (.ite (leaves_some hword) (.ite ?_ ?_)))))
    · refine ((blank?_leaves _).behind hword).bind fun rest => ?_
      split
      case h_1 rest =>
        refine .behind (.bind (blank?_leaves rest) fun rest => ?_) (List.suffix_cons '(' rest)
        refine (value?_leaves bareSome fuel rest).bind fun ⟨value, rest⟩ => ?_
        refine (comma?_leaves rest).bind fun read => ?_
        split
        case h_1 rest => exact leaves_some (List.suffix_cons ')' rest)
        case h_2 => exact leaves_none
      case h_2 => exact .ite (value?_leaves bareSome fuel _) leaves_none
    · split
      case h_1 rest => exact leaves_some (List.suffix_append ['(', ')'] rest)
      case h_2 rest => exact leaves_some (List.suffix_append ['-', 'i', 'n', 'f'] rest)
      case h_3 =>
        split
        case h_1 name rest heq =>
          refine .behind (.bind (blank?_leaves rest) fun rest => ?_) (name?_leaves cs _ heq)
          split
          case h_1 rest =>
            refine .behind (.bind (blank?_leaves rest) fun rest => ?_) (List.suffix_cons '(' rest)
            exact structure?_leaves bareSome fuel rest
          case h_2 => exact leaves_some (List.suffix_refl _)
        case h_2 =>
          split
          case h_1 rest _ _ _ =>
            refine .behind (.bind (blank?_leaves rest) fun rest => ?_) (List.suffix_cons '(' rest)
            exact structure?_leaves bareSome fuel rest
          case h_2 rest _ _ _ =>
            refine .behind (.bind (blank?_leaves rest) fun rest => ?_) (List.suffix_cons '[' rest)
            exact (values?_leaves bareSome fuel ']' rest).bind fun _ =>
              leaves_some (List.suffix_refl _)
          case h_3 rest _ _ _ =>
            refine .behind (.bind (blank?_leaves rest) fun rest => ?_) (List.suffix_cons _ rest)
            exact (entries?_leaves bareSome fuel rest).bind fun _ =>
              leaves_some (List.suffix_refl _)
          case h_4 => exact (character?_leaves _).map fun _ => rfl
          case h_5 =>
            split
            case h_1 text rest heq => exact leaves_some (string?_leaves cs _ heq)
            case h_2 => exact (number?_leaves cs).map fun _ => rfl

/-- What follows a structure stands behind its closing parenthesis. -/
theorem structure?_leaves (bareSome : Bool) (fuel : Nat) (cs : List Char) :
    Leaves Prod.snd cs (structure? bareSome fuel cs) := by
  cases fuel with
  | zero => exact leaves_none
  | succ fuel =>
    refine .ite ?_ ?_
    · exact (members?_leaves bareSome fuel cs).bind fun _ => leaves_some (List.suffix_refl _)
    · exact (values?_leaves bareSome fuel ')' cs).bind fun _ => leaves_some (List.suffix_refl _)

/-- What follows values stands behind the character that closes them. -/
theorem values?_leaves (bareSome : Bool) (fuel : Nat) (close : Char) (cs : List Char) :
    Leaves Prod.snd cs (values? bareSome fuel close cs) := by
  cases fuel with
  | zero => exact leaves_none
  | succ fuel =>
    refine .ite (leaves_some (List.tail_suffix cs)) ?_
    refine (value?_leaves bareSome fuel cs).bind fun ⟨value, rest⟩ => ?_
    refine (comma?_leaves rest).bind fun read => ?_
    split
    case h_1 rest =>
      exact (values?_leaves bareSome fuel close rest).bind fun _ => leaves_some (List.suffix_refl _)
    case h_2 rest => exact .ite (leaves_some (List.tail_suffix rest)) leaves_none

/-- What follows members stands behind the closing parenthesis. -/
theorem members?_leaves (bareSome : Bool) (fuel : Nat) (cs : List Char) :
    Leaves Prod.snd cs (members? bareSome fuel cs) := by
  cases fuel with
  | zero => exact leaves_none
  | succ fuel =>
    unfold members?
    split
    case h_1 rest => exact leaves_some (List.suffix_cons ')' rest)
    case h_2 =>
      refine (name?_leaves cs).bind fun ⟨name, rest⟩ => ?_
      refine (assigned?_leaves bareSome fuel rest).bind fun ⟨value, rest⟩ => ?_
      refine (comma?_leaves rest).bind fun read => ?_
      split
      case h_1 rest =>
        exact (members?_leaves bareSome fuel rest).bind fun _ => leaves_some (List.suffix_refl _)
      case h_2 rest => exact leaves_some (List.suffix_cons ')' rest)
      case h_3 => exact leaves_none

/-- What follows entries stands behind the closing brace. -/
theorem entries?_leaves (bareSome : Bool) (fuel : Nat) (cs : List Char) :
    Leaves Prod.snd cs (entries? bareSome fuel cs) := by
  cases fuel with
  | zero => exact leaves_none
  | succ fuel =>
    unfold entries?
    split
    case h_1 rest => exact leaves_some (List.suffix_cons _ rest)
    case h_2 =>
      refine (key?_leaves bareSome fuel cs).bind fun ⟨key, rest⟩ => ?_
      refine (assigned?_leaves bareSome fuel rest).bind fun ⟨value, rest⟩ => ?_
      refine (comma?_leaves rest).bind fun read => ?_
      split
      case h_1 rest =>
        exact (entries?_leaves bareSome fuel rest).bind fun _ => leaves_some (List.suffix_refl _)
      case h_2 rest => exact leaves_some (List.suffix_cons _ rest)
      case h_3 => exact leaves_none

/-- What follows the key of an entry stands behind it, even if it is unfit for one. -/
theorem key?_leaves (bareSome : Bool) (fuel : Nat) (cs : List Char) :
    Leaves Prod.snd cs (key? bareSome fuel cs) := by
  cases fuel with
  | zero => exact leaves_none
  | succ fuel =>
    unfold key?
    split
    case h_1 c rest heq => exact leaves_some (character?_leaves cs _ heq)
    case h_2 text rest _ heq => exact leaves_some (string?_leaves cs _ heq)
    case h_3 => exact (value?_leaves bareSome fuel cs).map fun _ => rfl

/-- What follows a colon and a value stands behind both. -/
theorem assigned?_leaves (bareSome : Bool) (fuel : Nat) (cs : List Char) :
    Leaves Prod.snd cs (assigned? bareSome fuel cs) := by
  cases fuel with
  | zero => exact leaves_none
  | succ fuel =>
    refine (blank?_leaves cs).bind fun rest => ?_
    split
    case h_1 rest =>
      refine .behind (.bind (blank?_leaves rest) fun rest => ?_) (List.suffix_cons ':' rest)
      exact value?_leaves bareSome fuel rest
    case h_2 => exact leaves_none

end

/-! ## Features -/

/-- Reads the names of features up to the closing parenthesis, and answers them with what stands
there. -/
def features? : Nat → List Char → Option (List String × List Char)
  | 0, _ => none
  | fuel + 1, cs => do
    let (name, rest) ← name? cs
    if name ≠ "unwrap_newtypes" ∧ name ≠ "implicit_some" then none
    else
      let (comma, rest) ← comma? rest
      if comma ∧ rest.head?.any isNameChar then
        let (names, rest) ← features? fuel rest
        return (name :: names, rest)
      else return ([name], rest)

/-- **There are two features.** -/
theorem mem_of_features? {fuel : Nat} {cs rest : List Char} {names : List String}
    (h : features? fuel cs = some (names, rest)) :
    ∀ name ∈ names, name = "unwrap_newtypes" ∨ name = "implicit_some" := by
  induction fuel generalizing cs names with
  | zero => cases h
  | succ fuel ih =>
    obtain ⟨⟨name, _⟩, _, h⟩ := Option.bind_eq_some_iff.1 h
    obtain ⟨hknown, h⟩ := Option.ite_none_left_eq_some.1 h
    obtain ⟨⟨_, _⟩, _, h⟩ := Option.bind_eq_some_iff.1 h
    have hname : name = "unwrap_newtypes" ∨ name = "implicit_some" := by
      simpa [Classical.or_iff_not_imp_left] using hknown
    dsimp only at h
    split at h
    · obtain ⟨⟨_, _⟩, hmore, ⟨⟩⟩ := Option.bind_eq_some_iff.1 h
      exact List.forall_mem_cons.2 ⟨hname, ih hmore⟩
    · cases h
      exact List.forall_mem_singleton.2 hname

/-- Reads the features at the start of a file, and answers them with what follows. -/
def allFeatures? : Nat → List Char → Option (List String × List Char)
  | 0, _ => none
  | fuel + 1, cs => do
    if cs.head? ≠ some '#' then return ([], cs)
    else
      let rest ← ["#", "!", "[", "enable", "("].foldlM word? cs
      let (names, rest) ← features? fuel rest
      let rest ← [")", "]"].foldlM word? (← blank? rest)
      let (more, rest) ← allFeatures? fuel rest
      return (names ++ more, rest)

/-- The settings of a file; `none` if it is malformed. -/
def settings? (text : String) : Option (List (String × Setting)) := do
  let cs ← blank? text.toList
  let (features, rest) ← allFeatures? (cs.length + 1) cs
  let (value, rest) ← value? (features.contains "implicit_some") (4 * rest.length + 4) rest
  if ← (blank? rest).map List.isEmpty then return (← value).entries else none

end Ron
end FlashVolume

import FlashVolume.Config.Toml.Value
/-!
# The sections of a TOML file

Section 10.5 of the specification: what `load` reads in `fsu.toml`.

```text
line   = blank [ names "=" blank value | "[" names "]" | "[[" names "]]" ] blank [ "#" comment ]
```

A line with one bracket opens a section for a table, a line with two one for the next table of a
list; the keys of the lines after it belong to that section. Keys before the first such line make a
section without a header.

The table at a path is gathered from the sections whose headers start with the path, in the order
of the file. A section with that header gives its entries; a longer header leads to a table, or to a
list of tables if its last name does, which is gathered from there on in the same way. A section is
read once. So a table is malformed that has a name twice, that has two sections with its header, or
whose header is also that of a list. The tables of a list reach from one of its sections to the
next.
-/

namespace FlashVolume
namespace Toml

/-- A section of a file. -/
structure Section where
  header : List String
  /-- Whether the table of the section is one of a list. -/
  isItem : Bool
  /-- What the section holds, until it is read. -/
  entries : Option (List (String × Value))

namespace Section

/-- Adds an entry to the last section. -/
def assign? (sections : List Section) (names : List String) (value : Value) :
    Option (List Section) := do
  let last := sections.getLast?.getD ⟨[], false, some []⟩
  let entries ← value.assign? (last.entries.getD []) names
  return sections.dropLast ++ [{ last with entries := some entries }]

/-- **An entry belongs to the section before it,** and opens none but the first. -/
theorem headers_of_assign? {sections more : List Section} {names : List String} {value : Value}
    (h : assign? sections names value = some more) :
    sections.map (·.header) <+: more.map (·.header) := by
  obtain ⟨_, _, ⟨⟩⟩ := Option.bind_eq_some_iff.1 h
  rcases List.eq_nil_or_concat sections with rfl | ⟨front, last, rfl⟩
  · exact List.nil_prefix
  · simp

/-- The position of the first unread section from `start` on and before `stop` whose header starts
with a path. -/
def next? (sections : List Section) (path : List String) (start stop : Nat) : Option Nat :=
  (sections.zipIdx.find? fun (s, i) =>
    start ≤ i && i < stop && path.isPrefixOf s.header && s.entries.isSome).map (·.2)

/-- The section that is found is unread, lies within the bounds, and its header starts with the
path. -/
theorem of_next? {sections : List Section} {path : List String} {start stop place : Nat}
    (h : next? sections path start stop = some place) :
    (start ≤ place ∧ place < stop) ∧
      ∃ s, sections[place]? = some s ∧ path <+: s.header ∧ s.entries.isSome = true := by
  obtain ⟨⟨s, _⟩, hfind, rfl⟩ := Option.map_eq_some_iff.1 h
  have hs := List.mem_of_find?_eq_some hfind
  have hp := List.find?_some hfind
  simp only [Bool.and_eq_true, decide_eq_true_eq, List.isPrefixOf_iff_prefix] at hp
  obtain ⟨⟨hbounds, hpath⟩, hunread⟩ := hp
  exact ⟨hbounds, s, List.mk_mem_zipIdx_iff_getElem?.1 hs, hpath, hunread⟩

/-- The position of the first section of the same list behind a section, or `stop` if there is none
before that. -/
def nextItem (sections : List Section) (place : Nat) (header : List String) (stop : Nat) : Nat :=
  match sections.zipIdx.find? fun (s, i) =>
    place < i && i < stop && s.header = header && s.isItem with
  | some (_, i) => i
  | none => stop

/-- **The tables of a list reach forward.** -/
theorem nextItem_bounds (sections : List Section) {place stop : Nat} (header : List String)
    (h : place < stop) :
    place < nextItem sections place header stop ∧ nextItem sections place header stop ≤ stop := by
  unfold nextItem
  split
  case h_1 i heq =>
    have hp := List.find?_some heq
    simp only [Bool.and_eq_true, decide_eq_true_eq] at hp
    omega
  case h_2 => exact ⟨h, Nat.le_refl stop⟩

/-- Marks a section as read. -/
def take (sections : List Section) (place : Nat) : List Section :=
  sections.modify place fun s => { s with entries := none }

/-- Reading a section removes none. -/
theorem length_take (sections : List Section) (place : Nat) :
    (take sections place).length = sections.length :=
  List.length_modify ..

/-- **A section is read once.** -/
theorem ne_of_next?_take {sections : List Section} {path : List String}
    {start stop place next : Nat} (h : next? (take sections place) path start stop = some next) :
    next ≠ place := by
  rintro rfl
  obtain ⟨-, s, hs, -, hunread⟩ := of_next? h
  rw [take, List.getElem?_modify_eq] at hs
  obtain ⟨_, _, rfl⟩ := Option.map_eq_some_iff.1 hs
  cases hunread

/-- Where the reader of a table stands. -/
structure Reader where
  /-- How many names of a header lead to the table. -/
  depth : Nat
  /-- The section that has led to the table, or one with a shorter header. -/
  parent : Nat
  /-- The section to go on with. -/
  start : Nat
  /-- The section before which the table ends. -/
  stop : Nat
  /-- The entries of a section that wait. -/
  waiting : List (String × Value) := []
  /-- What the table holds so far. -/
  known : List (String × Setting) := []

/-- Whether a name starts a table that is a moment. -/
def Reader.startsMoment (r : Reader) (name : String) : Bool :=
  r.known.isEmpty && name = Value.momentName

/-- Adds an entry, if its name is new. -/
def Reader.add? (r : Reader) (name : String) (value : Setting) : Option Reader :=
  if r.known.any (·.1 = name) then none else some { r with known := r.known ++ [(name, value)] }

/-- **A table has each name once.** -/
theorem Reader.nodup_of_add? {r more : Reader} {name : String} {value : Setting}
    (h : r.add? name value = some more) (hr : (r.known.map (·.1)).Nodup) :
    (more.known.map (·.1)).Nodup := by
  obtain ⟨hnew, h⟩ := Option.ite_none_left_eq_some.1 h
  cases h
  have hnotMem : name ∉ r.known.map (·.1) := by
    simpa using hnew
  rw [List.map_append, List.nodup_append]
  refine ⟨hr, by simp, ?_⟩
  rintro known hknown _ hlast rfl
  obtain rfl : known = name := by simpa using hlast
  exact hnotMem hknown

mutual

/-- Reads a table, and answers it with the sections, of which those it consists of are read. -/
def table? : Nat → List Section → Reader → Option (Setting × List Section)
  | 0, _, _ => none
  | fuel + 1, sections, r =>
    if r.parent = r.stop ∨ r.start = r.stop then some (.table r.known, sections)
    else
      match r.waiting with
      | (name, value) :: waiting =>
        if r.startsMoment name then value.moment?.map fun moment => (.text moment, sections)
        else do table? fuel sections { ← r.add? name (← value.setting?) with waiting }
      | [] => do
        let parent ← sections[r.parent]?
        match next? sections (parent.header.take r.depth) r.start r.stop with
        | none => return (.table r.known, sections)
        | some place =>
          let here ← sections[place]?
          if place ≠ r.parent ∧ here.header = parent.header then none
          else
            let r := if here.header.length < parent.header.length then { r with parent := place }
              else r
            match here.header[r.depth]? with
            | none =>
              if here.isItem then none
              else
                table? fuel (take sections place)
                  { r with start := place, waiting := here.entries.getD [] }
            | some name =>
              if r.startsMoment name then none
              else
                let (value, sections) ←
                  if here.isItem ∧ r.depth + 1 = here.header.length then
                    (items? fuel sections r.depth place r.stop).map fun (items, sections) =>
                      (.list items, sections)
                  else table? fuel sections ⟨r.depth + 1, place, 0, r.stop, [], []⟩
                table? fuel sections { ← r.add? name value with start := place + 1 }
termination_by structural fuel => fuel

/-- Reads the tables of a list from a section on, and answers them with the sections. -/
def items? : Nat → List Section → Nat → Nat → Nat → Option (List Setting × List Section)
  | 0, _, _, _, _ => none
  | fuel + 1, sections, depth, place, stop =>
    if place = stop then some ([], sections)
    else do
      let here ← sections[place]?
      let entries ← here.entries
      let next := nextItem sections place here.header stop
      let (item, sections) ← table? fuel (take sections place)
        ⟨depth + 1, place, 0, next, entries, []⟩
      let (items, sections) ← items? fuel sections depth next stop
      return (item :: items, sections)
termination_by structural fuel => fuel

end

/-- **A table that is read has each name once.** -/
theorem nodup_of_table? {fuel : Nat} {sections rest : List Section} {r : Reader}
    {entries : List (String × Setting)}
    (h : table? fuel sections r = some (.table entries, rest)) (hr : (r.known.map (·.1)).Nodup) :
    (entries.map (·.1)).Nodup := by
  -- By induction on the fuel: what is known is passed on with at most one new name.
  induction fuel generalizing sections r with
  | zero => cases h
  | succ fuel ih =>
    unfold table? at h
    split at h
    · cases h; exact hr
    split at h
    case h_1 name value waiting _ =>
      split at h
      · obtain ⟨_, _, hmoment⟩ := Option.map_eq_some_iff.1 h
        cases hmoment
      · obtain ⟨_, _, h⟩ := Option.bind_eq_some_iff.1 h
        obtain ⟨more, hmore, h⟩ := Option.bind_eq_some_iff.1 h
        have hnames := r.nodup_of_add? hmore hr
        exact ih h hnames
    case h_2 =>
      obtain ⟨parent, _, h⟩ := Option.bind_eq_some_iff.1 h
      split at h
      case h_1 => cases h; exact hr
      case h_2 place _ =>
        obtain ⟨here, _, h⟩ := Option.bind_eq_some_iff.1 h
        obtain ⟨_, h⟩ := Option.ite_none_left_eq_some.1 h
        have hled : ((if here.header.length < parent.header.length then { r with parent := place }
            else r).known.map (·.1)).Nodup := by
          split <;> exact hr
        dsimp only at h
        generalize (if here.header.length < parent.header.length then { r with parent := place }
            else r) = led at h hled
        split at h
        case h_1 =>
          obtain ⟨_, h⟩ := Option.ite_none_left_eq_some.1 h
          exact ih h hled
        case h_2 name _ =>
          obtain ⟨_, h⟩ := Option.ite_none_left_eq_some.1 h
          split at h
          all_goals
            obtain ⟨⟨_, _⟩, _, h⟩ := Option.bind_eq_some_iff.1 h
            obtain ⟨more, hmore, h⟩ := Option.bind_eq_some_iff.1 h
            have hnames := led.nodup_of_add? hmore hled
            exact ih h hnames

end Section

/-! ## Lines -/

/-- What follows the end of a line: the next line. -/
def endLine? (cs : List Char) : Option (List Char) :=
  match cs.dropWhile isSpace with
  | [] => some []
  | '\n' :: rest => some rest
  | '#' :: rest =>
    if (rest.takeWhile (· ≠ '\n')).all isPrintable then some (rest.dropWhile (· ≠ '\n')) else none
  | _ => none

/-- What follows the end of a line is the next line. -/
theorem endLine?_leaves (cs : List Char) : Leaves id cs (endLine? cs) := by
  refine .behind ?_ (List.dropWhile_suffix isSpace)
  unfold endLine?
  split
  case h_1 heq => rw [heq]; exact leaves_some (List.suffix_refl [])
  case h_2 rest heq => exact heq ▸ leaves_some (List.suffix_cons '\n' rest)
  case h_3 rest heq =>
    refine heq ▸ .ite (leaves_some ?_) leaves_none
    exact (List.dropWhile_suffix _).trans (List.suffix_cons '#' rest)
  case h_4 => exact leaves_none

/-- Reads the names of a table up to its closing bracket, and answers them with what follows. -/
def header? (cs : List Char) : Option (List String × List Char) := do
  let (names, rest) ← names? cs.length (cs.dropWhile isSpace)
  return (names, ← char? ']' rest)

/-- What follows a header stands behind its closing bracket. -/
theorem header?_leaves (cs : List Char) : Leaves Prod.snd cs (header? cs) := by
  refine ((names?_leaves _ _).behind (List.dropWhile_suffix isSpace)).bind ?_
  rintro ⟨_, rest⟩
  exact (char?_leaves ']' rest).bind fun _ => leaves_some (List.suffix_refl _)

/-- Reads lines up to the end of a file, and answers its sections behind those before. -/
def sections? : Nat → List Section → List Char → Option (List Section)
  | 0, _, _ => none
  | fuel + 1, sections, cs => do
    match ← skipLines? false cs with
    | [] => return sections
    | '[' :: '[' :: cs =>
      let (names, rest) ← header? cs
      let rest ← endLine? (← char? ']' rest)
      sections? fuel (sections ++ [⟨names, true, some []⟩]) rest
    | '[' :: cs =>
      let (names, rest) ← header? cs
      sections? fuel (sections ++ [⟨names, false, some []⟩]) (← endLine? rest)
    | cs =>
      let (names, rest) ← names? cs.length cs
      let (value, rest) ← value? (2 * cs.length + 2) ((← char? '=' rest).dropWhile isSpace)
      sections? fuel (← Section.assign? sections names value) (← endLine? rest)

/-- **What has been read stays:** the sections of what is read later stand behind it. -/
theorem headers_of_sections? {fuel : Nat} {sections more : List Section} {cs : List Char}
    (h : sections? fuel sections cs = some more) :
    sections.map (·.header) <+: more.map (·.header) := by
  -- By induction on the fuel: a line adds a section at the end, or an entry to the last one.
  induction fuel generalizing sections cs with
  | zero => cases h
  | succ fuel ih =>
    have hadd : ∀ s : Section, sections.map (·.header) <+: (sections ++ [s]).map (·.header) := by
      simp
    obtain ⟨_, _, h⟩ := Option.bind_eq_some_iff.1 h
    split at h
    case h_1 => cases h; exact List.prefix_rfl
    case h_2 =>
      obtain ⟨⟨_, _⟩, _, h⟩ := Option.bind_eq_some_iff.1 h
      obtain ⟨_, _, h⟩ := Option.bind_eq_some_iff.1 h
      obtain ⟨_, _, h⟩ := Option.bind_eq_some_iff.1 h
      exact (hadd _).trans (ih h)
    case h_3 =>
      obtain ⟨⟨_, _⟩, _, h⟩ := Option.bind_eq_some_iff.1 h
      obtain ⟨_, _, h⟩ := Option.bind_eq_some_iff.1 h
      exact (hadd _).trans (ih h)
    case h_4 =>
      obtain ⟨⟨_, _⟩, _, h⟩ := Option.bind_eq_some_iff.1 h
      obtain ⟨_, _, h⟩ := Option.bind_eq_some_iff.1 h
      obtain ⟨⟨_, _⟩, _, h⟩ := Option.bind_eq_some_iff.1 h
      obtain ⟨_, hassign, h⟩ := Option.bind_eq_some_iff.1 h
      obtain ⟨_, _, h⟩ := Option.bind_eq_some_iff.1 h
      exact (Section.headers_of_assign? hassign).trans (ih h)

/-- A text with each pair of carriage return and line feed as one line break. -/
def joinBreaks : List Char → List Char
  | '\r' :: '\n' :: cs => '\n' :: joinBreaks cs
  | c :: cs => c :: joinBreaks cs
  | [] => []

/-- **Only carriage returns are dropped.** -/
theorem filter_joinBreaks (cs : List Char) :
    (joinBreaks cs).filter (· ≠ '\r') = cs.filter (· ≠ '\r') := by
  fun_induction joinBreaks cs with
  | case1 cs ih => simpa using ih
  | case2 c cs _ ih => rw [List.filter_cons, List.filter_cons, ih]
  | case3 => rfl

/-- A text without carriage returns has nothing to join. -/
theorem joinBreaks_of_notMem {cs : List Char} (h : '\r' ∉ cs) : joinBreaks cs = cs := by
  fun_induction joinBreaks cs with
  | case1 cs => simp at h
  | case2 c cs _ ih => rw [ih fun hmem => h (List.mem_cons_of_mem c hmem)]
  | case3 => rfl

/-- The settings of a file; `none` if it is malformed. A byte order mark at its start does not
count. A file that is a moment as a whole has no settings. -/
def settings? (text : String) : Option (List (String × Setting)) := do
  let cs := joinBreaks text.toList
  let cs := if cs.head? = some (Char.ofNat 0xFEFF) then cs.tail else cs
  let sections ← sections? (cs.length + 1) [] cs
  let fuel := (cs.length + 2) * (2 * cs.length + 4)
  let (root, _) ← Section.table? fuel sections ⟨0, 0, 0, sections.length, [], []⟩
  return root.entries

/-- **A file sets each name once.** -/
theorem nodup_of_settings? {text : String} {entries : List (String × Setting)}
    (h : settings? text = some entries) : (entries.map (·.1)).Nodup := by
  obtain ⟨sections, _, h⟩ := Option.bind_eq_some_iff.1 h
  obtain ⟨⟨root, _⟩, hroot, ⟨⟩⟩ := Option.bind_eq_some_iff.1 h
  cases root with
  | table entries => exact Section.nodup_of_table? hroot List.nodup_nil
  | _ => exact List.nodup_nil

end Toml
end FlashVolume

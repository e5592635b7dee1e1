import FlashVolume.Config.Setting
import FlashVolume.Text.Based
import FlashVolume.Text.Blank
import FlashVolume.Text.Place
/-!
# INI settings files

Section 10.5 of the specification: what `load` reads in `fsu.ini`.

```text
comment = ( ";" | "#" ) at the start of a line, up to its end
section = "[" text "]"
setting = key ( "=" | ":" ) value
```

A key is what stands before the next `=` or `:`, across lines; a value is the rest of its line. A
value in single or double quotes may span lines, and the rest of its last line belongs to it. Keys,
values and the names of sections are trimmed, and have the escapes `\0 \a \b \t \r \n`, `\x` with
four hexadecimal digits, and a backslash before a line break, which drops both; before any other
character a backslash does not count.

All settings are texts. A section is a table of settings.
-/

namespace FlashVolume
namespace Ini

/-- The character with the code point that a text of hexadecimal digits writes. -/
def codePoint? (ds : List Char) : Option Char :=
  Text.codePoint? (if ds.head? = some '+' ∧ ds.length > 1 then ds.tail else ds)

/-- Reads the digits of a code point, as many as are asked for. A backslash and a line break before
a digit are dropped. -/
def digits? : Nat → List Char → Option (List Char × List Char)
  | 0, cs => some ([], cs)
  | count + 1, '\\' :: '\n' :: cs => (digits? count cs).map fun (ds, rest) => ('\n' :: ds, rest)
  | _ + 1, '\\' :: _ => none
  | count + 1, c :: cs => (digits? count cs).map fun (ds, rest) => (c :: ds, rest)
  | _ + 1, [] => none

/-- The digits of a code point are read from where they stand, dropped line breaks included. -/
theorem digits?_leaves (count : Nat) (cs : List Char) : Leaves Prod.snd cs (digits? count cs) := by
  fun_induction digits? count cs with
  | case1 cs => exact leaves_some (List.suffix_refl cs)
  | case2 count cs ih =>
    exact (ih.behind (List.suffix_append ['\\', '\n'] cs)).map fun _ => rfl
  | case3 => exact leaves_none
  | case4 count c cs _ _ ih => exact (ih.behind (List.suffix_cons c cs)).map fun _ => rfl
  | case5 => exact leaves_none

/-- **As many digits are read as are asked for.** -/
theorem length_of_digits? {count : Nat} {cs ds rest : List Char}
    (h : digits? count cs = some (ds, rest)) : ds.length = count := by
  fun_induction digits? count cs generalizing ds with
  | case1 => cases h; rfl
  | case3 | case5 => cases h
  | case2 _ _ ih | case4 _ _ _ _ _ ih =>
    obtain ⟨⟨_, _⟩, hmore, ⟨⟩⟩ := Option.map_eq_some_iff.1 h
    simpa using ih hmore

/-- Reads an escape behind its backslash, and answers what it stands for with what follows. -/
def escape? : List Char → Option (List Char × List Char)
  | [] => none
  | '0' :: cs => some ([Char.ofNat 0], cs)
  | 'a' :: cs => some (['\x07'], cs)
  | 'b' :: cs => some (['\x08'], cs)
  | 't' :: cs => some (['\t'], cs)
  | 'r' :: cs => some (['\r'], cs)
  | 'n' :: cs => some (['\n'], cs)
  | '\n' :: cs => some ([], cs)
  | 'x' :: cs => do
    let (ds, rest) ← digits? 4 cs
    return ([← codePoint? ds], rest)
  | c :: cs => some ([c], cs)

/-- What follows an escape stands behind it. -/
theorem escape?_leaves (cs : List Char) : Leaves Prod.snd cs (escape? cs) := by
  unfold escape?
  split
  case h_1 => exact leaves_none
  case h_9 cs =>
    refine ((digits?_leaves 4 cs).behind (List.suffix_cons 'x' cs)).bind fun _ => ?_
    exact leaves_bind fun _ => leaves_some (List.suffix_refl _)
  all_goals exact leaves_some (List.suffix_cons ..)

/-- Reads a text up to a character that ends it, and answers it with what follows from there.
Whether the end of the file ends it too, `atEnd` says. -/
def text? (ends : Char → Bool) (atEnd : Bool) : Nat → List Char → Option (List Char × List Char)
  | _, [] => if atEnd then some ([], []) else none
  | 0, _ => none
  | fuel + 1, c :: cs =>
    if ends c then some ([], c :: cs)
    else do
      let (first, rest) ← if c = '\\' then escape? cs else some ([c], cs)
      let (text, rest) ← text? ends atEnd fuel rest
      return (first ++ text, rest)

/-- What follows a text is the character that ends it, with what stands behind. -/
theorem text?_leaves (ends : Char → Bool) (atEnd : Bool) (fuel : Nat) (cs : List Char) :
    Leaves Prod.snd cs (text? ends atEnd fuel cs) := by
  induction fuel generalizing cs with
  | zero =>
    cases cs with
    | nil => exact .ite (leaves_some (List.suffix_refl [])) leaves_none
    | cons c cs => exact leaves_none
  | succ fuel ih =>
    cases cs with
    | nil => exact .ite (leaves_some (List.suffix_refl [])) leaves_none
    | cons c cs =>
      refine .ite (leaves_some (List.suffix_refl (c :: cs))) (.behind ?_ (List.suffix_cons c cs))
      refine .ite (.bind (escape?_leaves cs) fun ⟨_, rest⟩ => ?_) ?_
      · exact (ih rest).bind fun _ => leaves_some (List.suffix_refl _)
      · exact (ih cs).bind fun _ => leaves_some (List.suffix_refl _)

/-- **A text is read back** up to the character that ends it, if it has no backslash. -/
theorem text?_append {ends : Char → Bool} {atEnd : Bool} {text : List Char}
    (h : ∀ c ∈ text, ends c = false ∧ c ≠ '\\') {c : Char} (hend : ends c = true)
    (rest : List Char) {fuel : Nat} (hfuel : text.length < fuel) :
    text? ends atEnd fuel (text ++ c :: rest) = some (text, c :: rest) := by
  induction text generalizing fuel with
  | nil =>
    obtain ⟨fuel, rfl⟩ := Nat.exists_eq_succ_of_ne_zero (Nat.ne_of_gt hfuel)
    simp [text?, hend]
  | cons d text ih =>
    obtain ⟨fuel, rfl⟩ := Nat.exists_eq_succ_of_ne_zero (Nat.ne_of_gt (Nat.zero_lt_of_lt hfuel))
    obtain ⟨hgoesOn, hescape⟩ := h d (by simp)
    have hread := ih (fun e he => h e (by simp [he])) (by simpa using hfuel)
    simp [text?, hgoesOn, hescape, hread]

/-- Whether a character breaks a line. -/
def isBreak (c : Char) : Bool :=
  c = '\n' || c = '\r'

/-- Reads the rest of a line. -/
def restOfLine? (cs : List Char) : Option (List Char × List Char) :=
  text? isBreak true cs.length cs

/-- **A line is read up to its end,** if it has no backslash. -/
theorem restOfLine?_append {line : List Char} (h : ∀ c ∈ line, isBreak c = false ∧ c ≠ '\\')
    (rest : List Char) : restOfLine? (line ++ '\n' :: rest) = some (line, '\n' :: rest) :=
  text?_append h rfl rest (by simp)

/-- Reads a value behind its sign, and answers it with what follows. -/
def value? (cs : List Char) : Option (List Char × List Char) :=
  let cs := cs.dropWhile fun c => Text.isBlank c && !isBreak c
  match cs with
  | [] => some ([], [])
  | c :: rest =>
    if c = '"' ∨ c = '\'' then do
      let (quoted, rest) ← text? (· = c) false rest.length rest
      let (more, rest) ← restOfLine? rest.tail
      return (quoted ++ more, rest)
    else restOfLine? cs

/-- What follows a value is the end of its line. -/
theorem value?_leaves (cs : List Char) : Leaves Prod.snd cs (value? cs) := by
  refine .behind ?_ (List.dropWhile_suffix fun c => Text.isBlank c && !isBreak c)
  unfold value?
  dsimp only
  split
  case h_1 => exact leaves_some (List.nil_suffix ..)
  case h_2 c rest heq =>
    rw [heq]
    refine .ite (.behind ?_ (List.suffix_cons c rest)) (text?_leaves _ _ _ _)
    refine (text?_leaves _ _ _ rest).bind fun ⟨_, rest⟩ => ?_
    refine ((text?_leaves _ _ _ rest.tail).behind (List.tail_suffix rest)).bind fun _ => ?_
    exact leaves_some (List.suffix_refl _)

/-- A text without the blanks around it. -/
def trimmed (cs : List Char) : String :=
  String.ofList (Text.trimChars cs)

/-- What has been read of a file. -/
structure Progress where
  settings : List (String × Setting) := []
  /-- The section that is open, and what it holds so far. -/
  opened : Option (String × List (String × Setting)) := none
  /-- The key that waits for its value. -/
  key : String := ""

/-- The settings so far; the section that is open is the last of them. -/
def Progress.close (p : Progress) : List (String × Setting) :=
  match p.opened with
  | some (name, entries) => p.settings ++ [(name, .ofEntries entries)]
  | none => p.settings

/-- Opens a section. -/
def Progress.openSection (p : Progress) (name : String) : Progress :=
  { p with settings := p.close, opened := some (name, []) }

/-- Takes a value for the key that waits. -/
def Progress.assign (p : Progress) (value : String) : Progress :=
  match p.opened with
  | some (name, entries) =>
    { p with opened := some (name, entries ++ [(p.key, .text value)]), key := "" }
  | none => { p with settings := p.settings ++ [(p.key, .text value)], key := "" }

/-- A section that has been opened is the last setting, and holds nothing yet. -/
theorem Progress.close_openSection (p : Progress) (name : String) :
    (p.openSection name).close = p.close ++ [(name, .ofEntries [])] :=
  rfl

/-- **In front of all sections** a value is a setting by itself. -/
theorem Progress.close_assign {p : Progress} (h : p.opened = none) (value : String) :
    (p.assign value).close = p.close ++ [(p.key, .text value)] := by
  simp [Progress.assign, Progress.close, h]

/-- **In a section** a value is the last entry of its table. -/
theorem Progress.close_assign_opened {p : Progress} {name : String}
    {entries : List (String × Setting)} (h : p.opened = some (name, entries)) (value : String) :
    (p.assign value).close =
      p.settings ++ [(name, .ofEntries (entries ++ [(p.key, .text value)]))] := by
  simp [Progress.assign, Progress.close, h]

/-- Opening a section closes the one before it, and so only adds to the settings. -/
theorem Progress.settings_openSection (p : Progress) (name : String) :
    p.settings <+: (p.openSection name).settings := by
  unfold Progress.openSection Progress.close
  split
  · exact List.prefix_append ..
  · exact List.prefix_rfl

/-- A value for a key only adds to the settings. -/
theorem Progress.settings_assign (p : Progress) (value : String) :
    p.settings <+: (p.assign value).settings := by
  unfold Progress.assign
  split
  · exact List.prefix_rfl
  · exact List.prefix_append ..

/-- Reads on up to the end of a file; `lineStart` says whether a line starts here. -/
def read? : Nat → Progress → Bool → List Char → Option Progress
  | _, p, _, [] => some p
  | 0, _, _, _ => none
  | fuel + 1, p, lineStart, c :: cs =>
    if Text.isBlank c then read? fuel p (c = '\n') cs
    else if c = ';' ∨ c = '#' then
      if lineStart then read? fuel p true ((cs.dropWhile (· ≠ '\n')).tail) else none
    else if c = '[' then do
      let (name, rest) ← text? (· = ']') false cs.length cs
      read? fuel (p.openSection (trimmed name)) false rest.tail
    else if c = '=' ∨ c = ':' then
      if p.key.isEmpty then none
      else do
        let (value, rest) ← value? cs
        read? fuel (p.assign (trimmed value)) false rest
    else do
      let (key, rest) ← text? (fun c => c = '=' || c = ':') false (cs.length + 1) (c :: cs)
      read? fuel { p with key := trimmed key } false rest

/-- **What has been read stays:** the settings of what is read later stand behind it. -/
theorem settings_of_read? {fuel : Nat} {p q : Progress} {lineStart : Bool} {cs : List Char}
    (h : read? fuel p lineStart cs = some q) : p.settings <+: q.settings := by
  fun_induction read? fuel p lineStart cs with
  | case1 => cases h; exact List.prefix_rfl
  | case2 | case5 | case7 => cases h
  | case3 _ _ _ _ _ _ ih | case4 _ _ _ _ _ _ ih => exact ih h
  | case6 _ p _ _ _ _ ih =>
    obtain ⟨⟨name, rest⟩, _, h⟩ := Option.bind_eq_some_iff.1 h
    exact (p.settings_openSection (trimmed name)).trans (ih name rest h)
  | case8 _ p _ _ _ _ _ _ _ _ ih =>
    obtain ⟨⟨value, rest⟩, _, h⟩ := Option.bind_eq_some_iff.1 h
    exact (p.settings_assign (trimmed value)).trans (ih value rest h)
  | case9 _ _ _ _ _ _ _ _ _ ih =>
    obtain ⟨⟨key, rest⟩, _, h⟩ := Option.bind_eq_some_iff.1 h
    exact ih key rest h

/-- The settings of a file; `none` if it is malformed. -/
def settings? (text : String) : Option (List (String × Setting)) :=
  let cs := text.toList
  (read? (cs.length + 1) {} true cs).map Progress.close

end Ini
end FlashVolume

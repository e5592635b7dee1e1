import FlashVolume.Proofs.Text.Numerals
import FlashVolume.Shell.Command
/-!
# Commands are read back from their lines

Section 10.7 of the specification: `parse_command`.

A command is written as a `Phrase`: its word, its arguments, and the text of `write` and `append`.
A phrase stands in a line in many layouts, which `Phrase.IsWritten` lists:

| part of the line | what it may be |
| --- | --- |
| in front, and at the end | any blanks |
| the command word | in upper and lower case, letter by letter |
| in front of an argument | one blank or more |
| in front of the text | exactly one blank, as the text is kept as it is |

`Phrase.line` is the plainest of these. Whatever the layout, the parser gives back the command
(`parse_written`), if the command is one that a line can hold at all (`IsPlain`). And every
command that the parser gives is one of these (`isPlain_parse`).
-/

namespace FlashVolume

/-- A text as an argument that is left out when it is empty. -/
def optionalWord (s : String) : List String :=
  if s = "" then [] else [s]

/-- A command as it is written: its word, its arguments, and the text behind the arguments. -/
structure Phrase where
  word : String
  arguments : List String
  text : String
deriving DecidableEq, Repr

namespace Phrase

/-- The parts of the phrase with one space between them. -/
def line (p : Phrase) : String :=
  " ".intercalate (p.word :: (p.arguments ++ optionalWord p.text))

/-- The line holds the phrase, in one of its layouts. -/
def IsWritten (p : Phrase) (line : String) : Prop :=
  ∃ lead word arguments text trail : List Char,
    line.toList = lead ++ word ++ (arguments ++ text ++ trail) ∧
    Text.IsBlanks lead ∧
    word.map Char.toLower = p.word.toList ∧
    Text.Spaced (p.arguments.map String.toList) arguments ∧
    (∃ b, Text.isBlank b = true ∧ text = if p.text = "" then [] else b :: p.text.toList) ∧
    Text.IsBlanks trail

end Phrase

namespace Command

/-- How a command is written. Answers that are no command are not written. -/
def phrase? : Command → Option Phrase
  | quit => some ⟨"quit", [], ""⟩
  | ls dir => some ⟨"ls", [dir], ""⟩
  | find dir name .file => some ⟨"find", dir :: optionalWord name, ""⟩
  | find dir name .directory => some ⟨"find", "-d" :: dir :: optionalWord name, ""⟩
  | read path offset => some ⟨"read", [path, toString offset], ""⟩
  | write path data => some ⟨"write", [path], data⟩
  | append path data => some ⟨"append", [path], data⟩
  | rm path => some ⟨"rm", [path], ""⟩
  | rmall dir name => some ⟨"rmall", dir :: optionalWord name, ""⟩
  | size path => some ⟨"size", [path], ""⟩
  | unique dir name => some ⟨"exists", [dir, name], ""⟩
  | digest algorithm path length =>
    some ⟨algorithm.name, path :: (length.map toString).toList, ""⟩
  | mkdir path false => some ⟨"mkdir", [path], ""⟩
  | mkdir path true => some ⟨"mkdir", ["-p", path], ""⟩
  | history dir stem => some ⟨"history", [dir, stem], ""⟩
  | usage _ | unknown _ => none

/-- The line of a command. -/
def render? (c : Command) : Option String :=
  c.phrase?.map Phrase.line

example : (find "/lfs" "" .directory).render? = some "find -d /lfs" := by decide

/-- The commands that a line can hold: arguments are words, an optional name may be empty, numbers
have 64 bits, a text does not end in a blank, and a file is not searched by name in `-d`. -/
def IsPlain : Command → Prop
  | quit => True
  | ls path | rm path | size path | mkdir path _ => Text.IsWord path.toList
  | find dir name kind =>
    Text.IsWord dir.toList ∧ (name = "" ∨ Text.IsWord name.toList) ∧
      (kind = .file → dir = "-d" → name = "")
  | read path offset => Text.IsWord path.toList ∧ offset ≤ Word.maxUnsigned64
  | write path data | append path data => Text.IsWord path.toList ∧ ¬Text.EndsInBlank data.toList
  | rmall dir name => Text.IsWord dir.toList ∧ (name = "" ∨ Text.IsWord name.toList)
  | unique dir name | history dir name => Text.IsWord dir.toList ∧ Text.IsWord name.toList
  | digest _ path length => Text.IsWord path.toList ∧ ∀ n ∈ length, n ≤ Word.maxUnsigned64
  | usage _ | unknown _ => False

/-- The word a line starts with, in lower case. -/
def wordOf (line : String) : String :=
  (Text.splitAtBlank (Text.trim line)).1.toLower

/-- What stands behind the first word of a line. -/
def argumentOf (line : String) : String :=
  Text.trim ((Text.splitAtBlank (Text.trim line)).2.getD "")

end Command

namespace Phrase

variable {p : Phrase} {line : String}

/-- Lower case is taken character by character. -/
theorem toList_toLower (s : String) : s.toLower.toList = s.toList.map Char.toLower :=
  String.toList_map

/-- Blanks have no case. -/
theorem toLower_of_isBlank {c : Char} (h : Text.isBlank c = true) : c.toLower = c := by
  have hletter : ¬(c ≥ 'A' ∧ c ≤ 'Z') := by
    rintro ⟨hlow, hhigh⟩
    have hlow : 65 ≤ c.toNat := hlow
    have hhigh : c.toNat ≤ 90 := hhigh
    simp only [Text.isBlank, Text.blankRanges, List.any_cons, List.any_nil, Bool.or_false,
      Bool.or_eq_true, Bool.and_eq_true, decide_eq_true_eq] at h
    omega
  exact dif_neg hletter

/-- A word in any case is a word. -/
theorem isWord_of_toLower {word : List Char} {s : String} (h : word.map Char.toLower = s.toList)
    (hs : Text.IsWord s.toList) : Text.IsWord word := by
  refine ⟨fun hnil => hs.ne_nil (by rw [← h, hnil, List.map_nil]), fun c hc => ?_⟩
  have hlower : c.toLower ∈ s.toList := h ▸ List.mem_map_of_mem hc
  by_contra hblank
  rw [Bool.not_eq_false] at hblank
  rw [toLower_of_isBlank hblank] at hlower
  exact Bool.false_ne_true ((hs.not_blank c hlower).symm.trans hblank)

/-- What stands behind the first word of a line that holds a phrase. -/
theorem IsWritten.cut (h : p.IsWritten line) (hword : Text.IsWord p.word.toList) :
    Command.wordOf line = p.word ∧
      ∃ arguments text trail : List Char,
        Command.argumentOf line = String.ofList (Text.trimChars (arguments ++ text ++ trail)) ∧
        Text.Spaced (p.arguments.map String.toList) arguments ∧
        (∃ b, Text.isBlank b = true ∧ text = if p.text = "" then [] else b :: p.text.toList) ∧
        Text.IsBlanks trail := by
  obtain ⟨lead, word, arguments, text, trail, hline, hlead, hlower, hspaced, htext, htrail⟩ := h
  have hbreak : Text.IsBreak (text ++ trail) := by
    obtain ⟨b, hb, rfl⟩ := htext
    split
    · exact htrail.isBreak
    · have hgap : Text.IsBlanks [b] := List.forall_mem_singleton.2 hb
      exact Text.isBreak_append hgap (List.cons_ne_nil b []) _
  have htail : Text.IsBreak (arguments ++ text ++ trail) := by
    rw [List.append_assoc]
    exact hspaced.isBreak_append hbreak
  obtain ⟨hfirst, hrest⟩ :=
    Text.splitAtBlank_trim hline hlead (isWord_of_toLower hlower hword) htail
  refine ⟨?_, arguments, text, trail, hrest, hspaced, htext, htrail⟩
  rw [Command.wordOf, hfirst, ← String.toList_inj, toList_toLower, String.toList_ofList, hlower]

/-- **Arguments are read back** as the words of the line. -/
theorem IsWritten.words (h : p.IsWritten line) (hword : Text.IsWord p.word.toList)
    (harguments : ∀ a ∈ p.arguments, Text.IsWord a.toList) (hnone : p.text = "") :
    Text.words (Command.argumentOf line) = p.arguments := by
  obtain ⟨-, arguments, text, trail, hargument, hspaced, ⟨b, -, rfl⟩, htrail⟩ := h.cut hword
  have hwords : ∀ word ∈ p.arguments.map String.toList, Text.IsWord word :=
    List.forall_mem_map.2 harguments
  rw [hargument, Text.words, String.toList_ofList, Text.wordChars_trimChars, if_pos hnone,
    List.append_nil, Text.wordChars_spaced hspaced hwords htrail, List.map_map]
  simp [Function.comp_def]

/-- **A text is read back as it stands** behind the path and one blank. -/
theorem IsWritten.pathAndText (h : p.IsWritten line) (hword : Text.IsWord p.word.toList)
    {path : String} (hpath : Text.IsWord path.toList) (hone : p.arguments = [path])
    (hend : ¬Text.EndsInBlank p.text.toList) (make : String → String → Command)
    (fallback : Usage) :
    Command.ofPathAndText make fallback (Command.argumentOf line) = make path p.text := by
  obtain ⟨-, arguments, text, trail, hargument, hspaced, ⟨b, hb, htext⟩, htrail⟩ := h.cut hword
  rw [hone] at hspaced
  obtain ⟨gap, hgap, rfl⟩ : ∃ gap, Text.IsBlanks gap ∧ arguments = gap ++ path.toList := by
    generalize hwords : [path].map String.toList = words at hspaced
    cases hspaced with
    | nil => cases hwords
    | @cons gap word rest words hgap _ hrest =>
      obtain ⟨rfl, rfl⟩ := List.cons.inj hwords
      cases hrest
      exact ⟨gap, hgap, List.append_nil _⟩
  -- The text is cut off at its blank, and what is kept of it is what stands behind that.
  obtain ⟨hbreak, hkept, hbehind⟩ : Text.IsBreak text ∧ ¬Text.EndsInBlank text ∧
      (text.tail?.map String.ofList).getD "" = p.text := by
    by_cases hnone : p.text = ""
    · rw [htext, if_pos hnone, hnone]
      exact ⟨fun c hc => by simp at hc, fun ⟨c, hc, _⟩ => by simp at hc, rfl⟩
    · rw [htext, if_neg hnone]
      have hsome : p.text.toList ≠ [] := mt String.toList_eq_nil_iff.1 hnone
      exact ⟨fun c hc => Option.mem_some_iff.1 hc ▸ hb, Text.not_endsInBlank_cons b hsome hend,
        String.ofList_toList⟩
  have htrim : Text.trimChars (gap ++ path.toList ++ text ++ trail) = path.toList ++ text := by
    rw [List.append_assoc _ text trail]
    exact Text.trimChars_word_text hgap hpath hkept htrail
  have hnotEmpty : path.isEmpty = false := by
    rw [Bool.eq_false_iff, ne_eq, String.isEmpty_iff, ← String.toList_eq_nil_iff]
    exact hpath.ne_nil
  rw [Command.ofPathAndText, hargument, htrim, Text.splitAtBlank, String.toList_ofList,
    Text.splitChars_word_append hpath hbreak]
  simp only [String.ofList_toList, hnotEmpty, hbehind, Bool.false_eq_true, if_false]

/-- Words behind one space each. -/
theorem spaced_flatMap (words : List (List Char)) :
    Text.Spaced words (words.flatMap (' ' :: ·)) := by
  induction words with
  | nil => exact .nil
  | cons word words ih =>
    have hgap : Text.IsBlanks [' '] := by decide
    exact .cons hgap (List.cons_ne_nil ' ' []) ih

/-- Words joined by blanks are the first one and each other behind a blank. -/
theorem intercalate_space (word : List Char) (words : List (List Char)) :
    [' '].intercalate (word :: words) = word ++ words.flatMap (' ' :: ·) := by
  induction words generalizing word with
  | nil => simp
  | cons next words ih => rw [List.intercalate_cons_cons, ih, List.flatMap_cons]; simp

/-- **The plain line is one of the layouts.** -/
theorem isWritten_line (p : Phrase) (hlower : p.word.toList.map Char.toLower = p.word.toList) :
    p.IsWritten p.line := by
  refine ⟨[], p.word.toList, (p.arguments.map String.toList).flatMap (' ' :: ·),
    if p.text = "" then [] else ' ' :: p.text.toList, [], ?_, fun c hc => by simp at hc, hlower,
    spaced_flatMap _, ⟨' ', by decide, rfl⟩, fun c hc => by simp at hc⟩
  have hspace : " ".toList = [' '] := by decide
  have htext : ((optionalWord p.text).map String.toList).flatMap (' ' :: ·) =
      if p.text = "" then [] else ' ' :: p.text.toList := by
    rw [optionalWord]
    split <;> simp
  rw [line, String.toList_intercalate, hspace, List.map_cons, intercalate_space, List.map_append,
    List.flatMap_append, htext, List.nil_append, List.append_nil]

end Phrase

namespace Command

open Phrase

variable {c : Command} {line : String}

/-! ### The arguments of a command -/

/-- A file in `-d` can only be searched without a name, as else `-d` is read as the flag. -/
theorem ofFindWords_file {dir name : String} (hflag : dir = "-d" → name = "") :
    ofFindWords (dir :: optionalWord name) = find dir name .file := by
  rw [optionalWord]
  split
  · rename_i hnone
    simp [ofFindWords, hnone]
  · rename_i hsome
    have hdir : dir ≠ "-d" := fun hdir => hsome (hflag hdir)
    simp [ofFindWords]

/-- A search for directories is read back, with a name or without. -/
theorem ofFindWords_directory (dir name : String) :
    ofFindWords ("-d" :: dir :: optionalWord name) = find dir name .directory := by
  rw [optionalWord]
  split
  · rename_i hnone
    rw [hnone]; rfl
  · rfl

/-- A bulk delete is read back, with a name or without. -/
theorem ofRmallWords_optionalWord (dir name : String) :
    ofRmallWords (dir :: optionalWord name) = rmall dir name := by
  rw [optionalWord]
  split
  · rename_i hnone
    rw [hnone]; rfl
  · rfl

/-- A read with an offset is read back. -/
theorem ofReadWords_toString {offset : Nat} (h : offset ≤ Word.maxUnsigned64) (path : String) :
    ofReadWords [path, toString offset] = read path offset := by
  rw [ofReadWords, Text.unsigned64?_toString h]

/-- A digest is read back, with a length or without. -/
theorem ofDigestWords_toString {length : Option Nat} (h : ∀ n ∈ length, n ≤ Word.maxUnsigned64)
    (algorithm : Algorithm) (path : String) :
    ofDigestWords algorithm (path :: (length.map toString).toList) =
      digest algorithm path length := by
  cases length with
  | none => rfl
  | some n =>
    rw [Option.map_some, Option.toList_some, ofDigestWords, Text.unsigned64?_toString (h n rfl)]

/-- A name that is written is a word. -/
theorem isWord_of_mem_optionalWord {name : String} (h : name = "" ∨ Text.IsWord name.toList) :
    ∀ a ∈ optionalWord name, Text.IsWord a.toList := by
  intro a ha
  rw [optionalWord] at ha
  split at ha
  · cases ha
  · obtain rfl := List.mem_singleton.1 ha
    exact h.resolve_left ‹_›

/-! ### Written, then read -/

/-- The command words are words, in lower case. -/
theorem word_phrase? {p : Phrase} (h : c.phrase? = some p) :
    Text.IsWord p.word.toList ∧ p.word.toList.map Char.toLower = p.word.toList := by
  cases c with
  | find dir name kind => cases kind <;> cases h <;> dsimp only <;> decide
  | digest algorithm path length => cases algorithm <;> cases h <;> dsimp only <;> decide
  | mkdir path recursive => cases recursive <;> cases h <;> dsimp only <;> decide
  | usage | unknown => cases h
  | _ => cases h; dsimp only; decide

/-- The arguments of a plain command are words. -/
theorem isWord_of_mem_arguments {p : Phrase} (hplain : c.IsPlain) (h : c.phrase? = some p) :
    ∀ a ∈ p.arguments, Text.IsWord a.toList := by
  cases c with
  | quit => cases h; exact List.forall_mem_nil _
  | ls | rm | size => cases h; exact List.forall_mem_singleton.2 hplain
  | write | append => cases h; exact List.forall_mem_singleton.2 hplain.1
  | find dir name kind =>
    obtain ⟨hdir, hname, -⟩ := hplain
    have hboth : ∀ a ∈ dir :: optionalWord name, Text.IsWord a.toList :=
      List.forall_mem_cons.2 ⟨hdir, isWord_of_mem_optionalWord hname⟩
    cases kind with
    | file => cases h; exact hboth
    | directory => cases h; exact List.forall_mem_cons.2 ⟨by decide, hboth⟩
  | read path offset =>
    cases h
    exact List.forall_mem_cons.2
      ⟨hplain.1, List.forall_mem_singleton.2 (Text.isWord_toString offset)⟩
  | rmall dir name =>
    cases h
    exact List.forall_mem_cons.2 ⟨hplain.1, isWord_of_mem_optionalWord hplain.2⟩
  | unique | history =>
    cases h
    exact List.forall_mem_cons.2 ⟨hplain.1, List.forall_mem_singleton.2 hplain.2⟩
  | digest algorithm path length =>
    cases h
    refine List.forall_mem_cons.2 ⟨hplain.1, ?_⟩
    cases length with
    | none => exact List.forall_mem_nil _
    | some n => exact List.forall_mem_singleton.2 (Text.isWord_toString n)
  | mkdir path recursive =>
    cases recursive with
    | false => cases h; exact List.forall_mem_singleton.2 hplain
    | true => cases h; exact List.forall_mem_cons.2 ⟨by decide, List.forall_mem_singleton.2 hplain⟩
  | usage | unknown => cases h

/-- **A command is read back from every line it is written in.** -/
theorem parse_written {p : Phrase} (hplain : c.IsPlain) (hphrase : c.phrase? = some p)
    (h : p.IsWritten line) : parse line = c := by
  have hword := (word_phrase? hphrase).1
  have hfirst := (h.cut hword).1
  have hwords := h.words hword (isWord_of_mem_arguments hplain hphrase)
  have htext := @IsWritten.pathAndText p line h hword
  rw [wordOf] at hfirst
  rw [argumentOf] at hwords htext
  cases c with
  | quit => cases hphrase; simp [parse, hfirst]
  | ls | rm | size => cases hphrase; simp [parse, hfirst, hwords, ofWord]
  | find dir name kind =>
    cases kind with
    | file => cases hphrase; simp [parse, hfirst, hwords, ofFindWords_file (hplain.2.2 rfl)]
    | directory => cases hphrase; simp [parse, hfirst, hwords, ofFindWords_directory]
  | read path offset =>
    have hoffset := ofReadWords_toString hplain.2 path
    cases hphrase; simp [parse, hfirst, hwords, -Nat.toString_eq_repr, hoffset]
  | write | append => cases hphrase; simp [parse, hfirst, htext hplain.1 rfl hplain.2]
  | rmall => cases hphrase; simp [parse, hfirst, hwords, ofRmallWords_optionalWord]
  | unique | history => cases hphrase; simp [parse, hfirst, hwords, ofTwoWords]
  | digest algorithm path length =>
    have hlength := ofDigestWords_toString hplain.2 algorithm path
    cases algorithm <;> cases hphrase <;> simp [parse, hfirst, hwords, Algorithm.name, hlength]
  | mkdir path recursive =>
    cases recursive <;> cases hphrase <;> simp [parse, hfirst, hwords, ofMkdirWords]
  | usage | unknown => cases hphrase

/-! ### Read, then written -/

section
variable {words : List String}

/-- The words of a line are words. -/
theorem isWord_of_mem_words {text word : String} (h : word ∈ Text.words text) :
    Text.IsWord word.toList := by
  obtain ⟨cs, hcs, rfl⟩ := List.mem_map.1 h
  rw [String.toList_ofList]
  exact Text.isWord_of_mem_wordChars hcs

/-- Answered with the usage, or a command that a line can hold. -/
def IsUsageOrPlain (c : Command) : Prop :=
  (∃ u, c = usage u) ∨ c.IsPlain

/-- The words of a search give a plain command or a usage. -/
theorem isUsageOrPlain_ofFindWords (h : ∀ w ∈ words, Text.IsWord w.toList) :
    (ofFindWords words).IsUsageOrPlain := by
  unfold ofFindWords
  split
  · exact .inr ⟨h _ (by simp), .inl rfl, fun _ _ => rfl⟩
  · exact .inr ⟨h _ (by simp), .inr (h _ (by simp)), fun hkind => by cases hkind⟩
  · exact .inr ⟨h _ (by simp), .inl rfl, fun _ _ => rfl⟩
  · rename_i hflag
    exact .inr ⟨h _ (by simp), .inr (h _ (by simp)), fun _ hdir => (hflag hdir).elim⟩
  · exact .inl ⟨_, rfl⟩

/-- So do those of a read. -/
theorem isUsageOrPlain_ofReadWords (h : ∀ w ∈ words, Text.IsWord w.toList) :
    (ofReadWords words).IsUsageOrPlain := by
  unfold ofReadWords
  split
  · exact .inr ⟨h _ (by simp), Nat.zero_le _⟩
  · split
    · exact .inr ⟨h _ (by simp), Text.le_of_unsigned64? ‹_›⟩
    · exact .inl ⟨_, rfl⟩
  · exact .inl ⟨_, rfl⟩

/-- So do those of a bulk delete. -/
theorem isUsageOrPlain_ofRmallWords (h : ∀ w ∈ words, Text.IsWord w.toList) :
    (ofRmallWords words).IsUsageOrPlain := by
  unfold ofRmallWords
  split
  · exact .inr ⟨h _ (by simp), .inl rfl⟩
  · exact .inr ⟨h _ (by simp), .inr (h _ (by simp))⟩
  · exact .inl ⟨_, rfl⟩

/-- So do those of a digest. -/
theorem isUsageOrPlain_ofDigestWords (h : ∀ w ∈ words, Text.IsWord w.toList)
    (algorithm : Algorithm) : (ofDigestWords algorithm words).IsUsageOrPlain := by
  unfold ofDigestWords
  split
  · exact .inr ⟨h _ (by simp), fun n hn => by cases hn⟩
  · split
    · refine .inr ⟨h _ (by simp), fun n hn => ?_⟩
      obtain rfl := Option.mem_some_iff.1 hn
      exact Text.le_of_unsigned64? ‹_›
    · exact .inl ⟨_, rfl⟩
  · exact .inl ⟨_, rfl⟩

/-- So do those that make directories. -/
theorem isUsageOrPlain_ofMkdirWords (h : ∀ w ∈ words, Text.IsWord w.toList) :
    (ofMkdirWords words).IsUsageOrPlain := by
  unfold ofMkdirWords
  split
  · exact .inr (h _ (by simp))
  · exact .inr (h _ (by simp))
  · exact .inl ⟨_, rfl⟩

/-- Commands about one word are plain, or one is missing. -/
theorem isUsageOrPlain_ofWord {make : String → Command} (fallback : Usage)
    (hmake : ∀ word, Text.IsWord word.toList → (make word).IsPlain)
    (h : ∀ w ∈ words, Text.IsWord w.toList) : (ofWord make fallback words).IsUsageOrPlain := by
  unfold ofWord
  split
  · exact .inr (hmake _ (h _ (by simp)))
  · exact .inl ⟨_, rfl⟩

/-- Commands about two words are plain, or one is missing. -/
theorem isUsageOrPlain_ofTwoWords {make : String → String → Command} (fallback : Usage)
    (hmake : ∀ first second, Text.IsWord first.toList → Text.IsWord second.toList →
      (make first second).IsPlain)
    (h : ∀ w ∈ words, Text.IsWord w.toList) : (ofTwoWords make fallback words).IsUsageOrPlain := by
  unfold ofTwoWords
  split
  · exact .inr (hmake _ _ (h _ (by simp)) (h _ (by simp)))
  · exact .inl ⟨_, rfl⟩

end

/-- The text of `write` and `append` is cut from a line without blanks at its end. -/
theorem isUsageOrPlain_ofPathAndText {make : String → String → Command} (fallback : Usage)
    (hmake : ∀ path text, Text.IsWord path.toList → ¬Text.EndsInBlank text.toList →
      (make path text).IsPlain) (argument : String) :
    (ofPathAndText make fallback (Text.trim argument)).IsUsageOrPlain := by
  rw [ofPathAndText, Text.trim, Text.splitAtBlank, String.toList_ofList]
  generalize htrim : Text.trimChars argument.toList = cs
  have hend : ¬Text.EndsInBlank cs := htrim ▸ Text.not_endsInBlank_trimChars _
  have hbehind : (((Text.splitChars cs).2.map String.ofList).getD "").toList =
      (Text.splitChars cs).2.getD [] := by
    cases (Text.splitChars cs).2 <;> simp
  dsimp only
  split
  · exact .inl ⟨_, rfl⟩
  · rename_i hsome
    rw [String.isEmpty_iff, ← String.toList_eq_nil_iff, String.toList_ofList] at hsome
    refine .inr (hmake _ _ ?_ ?_)
    · rw [String.toList_ofList]
      exact ⟨hsome, Text.splitChars_fst_not_blank cs⟩
    · rw [hbehind]
      exact fun h => hend (h.of_suffix (Text.splitChars_snd_suffix cs))

/-- **Every command that is read can be written.** -/
theorem isPlain_parse (line : String) :
    (∃ u, parse line = usage u) ∨ (∃ t, parse line = unknown t) ∨ (parse line).IsPlain := by
  have hwords : ∀ w ∈ Text.words (argumentOf line), Text.IsWord w.toList :=
    fun w hw => isWord_of_mem_words hw
  suffices h : (∃ t, parse line = unknown t) ∨ (parse line).IsUsageOrPlain by
    rcases h with h | h | h
    · exact .inr (.inl h)
    · exact .inl h
    · exact .inr (.inr h)
  rw [argumentOf] at hwords
  unfold parse
  dsimp only
  split
  · exact .inr (.inr trivial)
  · exact .inr (.inr trivial)
  · exact .inr (isUsageOrPlain_ofWord .ls (fun _ h => h) hwords)
  · exact .inr (isUsageOrPlain_ofFindWords hwords)
  · exact .inr (isUsageOrPlain_ofReadWords hwords)
  · exact .inr (isUsageOrPlain_ofPathAndText .write (fun _ _ => And.intro) _)
  · exact .inr (isUsageOrPlain_ofPathAndText .append (fun _ _ => And.intro) _)
  · exact .inr (isUsageOrPlain_ofWord .rm (fun _ h => h) hwords)
  · exact .inr (isUsageOrPlain_ofRmallWords hwords)
  · exact .inr (isUsageOrPlain_ofWord .size (fun _ h => h) hwords)
  · exact .inr (isUsageOrPlain_ofTwoWords .unique (fun _ _ => And.intro) hwords)
  · exact .inr (isUsageOrPlain_ofDigestWords hwords .sha256)
  · exact .inr (isUsageOrPlain_ofDigestWords hwords .crc32)
  · exact .inr (isUsageOrPlain_ofMkdirWords hwords)
  · exact .inr (isUsageOrPlain_ofTwoWords .history (fun _ _ => And.intro) hwords)
  · exact .inl ⟨_, rfl⟩

/-- Every plain command can be written. -/
theorem exists_phrase? (hplain : c.IsPlain) : ∃ p, c.phrase? = some p := by
  cases c with
  | find dir name kind => cases kind <;> exact ⟨_, rfl⟩
  | mkdir path recursive => cases recursive <;> exact ⟨_, rfl⟩
  | usage | unknown => exact hplain.elim
  | _ => exact ⟨_, rfl⟩

/-- **Lines and commands.** A plain command is read back from its line, and from every other
layout of it. Conversely a line is answered with the usage, is unknown, or is read as a plain
command, and then the line of that command is read as the same command. -/
theorem parse_render (c : Command) (line : String) :
    (c.IsPlain → ∃ p, c.phrase? = some p ∧ c.render? = some p.line ∧ p.IsWritten p.line ∧
      ∀ layout, p.IsWritten layout → parse layout = c) ∧
    ((∃ u, parse line = usage u) ∨ (∃ t, parse line = unknown t) ∨
      (parse line).IsPlain ∧ ∃ text, (parse line).render? = some text ∧
        parse text = parse line) := by
  have hwritten : ∀ c : Command, c.IsPlain → ∃ p, c.phrase? = some p ∧ c.render? = some p.line ∧
      p.IsWritten p.line ∧ ∀ layout, p.IsWritten layout → parse layout = c := by
    intro c hplain
    obtain ⟨p, hphrase⟩ := exists_phrase? hplain
    refine ⟨p, hphrase, by rw [render?, hphrase, Option.map_some],
      isWritten_line p (word_phrase? hphrase).2, fun layout h => parse_written hplain hphrase h⟩
  refine ⟨hwritten c, ?_⟩
  rcases isPlain_parse line with husage | hunknown | hplain
  · exact .inl husage
  · exact .inr (.inl hunknown)
  · obtain ⟨p, -, hrender, hline, hread⟩ := hwritten (parse line) hplain
    exact .inr (.inr ⟨hplain, p.line, hrender, hread p.line hline⟩)

/-- A text with spaces in it, in a line with other blanks and letters in upper case. -/
theorem parse_render_write :
    parse "\u3000WrItE \t/lfs/a\u00a0 two  words \n" = write "/lfs/a" " two  words" := by
  have hplain : (write "/lfs/a" " two  words").IsPlain := by
    unfold IsPlain
    decide
  obtain ⟨p, hphrase, -, -, hread⟩ := (parse_render (write "/lfs/a" " two  words") "").1 hplain
  cases hphrase
  refine hread _ ⟨['\u3000'], "WrItE".toList, [' ', '\t'] ++ "/lfs/a".toList ++ [],
    '\u00a0' :: " two  words".toList, [' ', '\n'], by decide, by decide, by decide,
    .cons (by decide) (by decide) .nil, ⟨'\u00a0', by decide, by decide⟩, by decide⟩

end Command
end FlashVolume

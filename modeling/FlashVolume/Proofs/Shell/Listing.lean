import FlashVolume.Proofs.Storage.Runs
import FlashVolume.Proofs.Text.Numerals
import FlashVolume.Shell.Reply
/-!
# Listings are read back

Section 10.7 of the specification: what `ls` and `find` show.

A line of a listing has no marks between its parts but single spaces, and both a size and a name can
be as long as they like:

| part | written as | where it ends |
| --- | --- | --- |
| kind | a letter and a space | behind two characters |
| size | spaces up to eight columns, then digits | behind the last of these digits |
| name | a space and its characters | with the line |

The spaces in front of a size are followed by a digit, so what a name looks like does not matter:
the space behind the last digit is the one that separates, and the rest of the line is the name,
also if it starts with spaces or digits (`readLine?_entryLine`). Lines are kept apart by line
breaks, so a listing is read back as long as no name has one (`readListing?_listing`).
-/

namespace FlashVolume

/-- The kind that a letter of a listing stands for. -/
def EntryKind.ofTag? : Char → Option EntryKind
  | 'F' => some .file
  | 'D' => some .directory
  | _ => none

/-- The letter of a kind tells the kind. -/
theorem EntryKind.ofTag?_tag (kind : EntryKind) : EntryKind.ofTag? kind.tag = some kind := by
  cases kind <;> rfl

namespace Reply

/-- The entry that a line of a listing shows. -/
def readLine? : List Char → Option Entry
  | tag :: ' ' :: field => do
    let kind ← EntryKind.ofTag? tag
    let digits := field.dropWhile (· = ' ')
    let size ← Text.digits? (digits.takeWhile Char.isDigit)
    match digits.dropWhile Char.isDigit with
    | ' ' :: name => some ⟨kind, size, String.ofList name⟩
    | _ => none
  | _ => none

/-- The entries that a listing shows. -/
def readListing? (text : String) : Option (List Entry) :=
  if text = "" then some [] else (text.toList.splitOn '\n').mapM readLine?

/-! ### Lines -/

/-- The blanks before a number are those that align it. -/
theorem dropWhile_alignRight (width n : Nat) (rest : List Char) :
    (alignRight width (Nat.toDigits 10 n) ++ rest).dropWhile (· = ' ') =
      Nat.toDigits 10 n ++ rest := by
  have hspaces : ∀ c ∈ List.replicate (width - (Nat.toDigits 10 n).length) ' ',
      decide (c = ' ') = true :=
    fun c hc => decide_eq_true (List.eq_of_mem_replicate hc)
  obtain ⟨digit, digits, hdigits⟩ :=
    List.exists_cons_of_ne_nil (Nat.toDigits_ne_nil (b := 10) (n := n))
  have hdigit : digit ≠ ' ' := by
    rintro rfl
    have hmem : ' ' ∈ Nat.toDigits 10 n := hdigits ▸ List.mem_cons_self
    exact absurd (Text.isDigit_of_mem_toDigits hmem) (by decide)
  rw [alignRight, List.append_assoc, List.dropWhile_append_of_pos hspaces, hdigits,
    List.cons_append, List.dropWhile_cons_of_neg (by simpa using hdigit)]

/-- The digits of a size end at the space behind them. -/
theorem span_digits (n : Nat) (name : List Char) :
    (Nat.toDigits 10 n ++ ' ' :: name).takeWhile Char.isDigit = Nat.toDigits 10 n ∧
      (Nat.toDigits 10 n ++ ' ' :: name).dropWhile Char.isDigit = ' ' :: name := by
  have hdigits : ∀ c ∈ Nat.toDigits 10 n, c.isDigit = true :=
    fun c hc => Text.isDigit_of_mem_toDigits hc
  have hspace : ¬(' '.isDigit = true) := by decide
  refine ⟨?_, ?_⟩
  · rw [List.takeWhile_append_of_pos hdigits, List.takeWhile_cons_of_neg hspace, List.append_nil]
  · rw [List.dropWhile_append_of_pos hdigits, List.dropWhile_cons_of_neg hspace]

/-- **A line is read back,** whatever the name is. -/
theorem readLine?_entryLine (entry : Entry) : readLine? (entryLine entry).toList = some entry := by
  have hline : (entryLine entry).toList = entry.kind.tag :: ' ' ::
      (alignRight 8 (Nat.toDigits 10 entry.size) ++ ' ' :: entry.name.toList) := by
    rw [entryLine, String.toList_ofList, List.cons_append, List.cons_append]
  obtain ⟨hsize, hname⟩ := span_digits entry.size entry.name.toList
  simp only [hline, readLine?, EntryKind.ofTag?_tag, dropWhile_alignRight, hsize, hname,
    Text.digits?_toDigits, String.ofList_toList, bind, Option.bind_some]

/-- A line has no line break that the name does not have. -/
theorem notMem_entryLine {entry : Entry} (h : '\n' ∉ entry.name.toList) :
    '\n' ∉ (entryLine entry).toList := by
  have htag : '\n' ≠ entry.kind.tag := by cases entry.kind <;> decide
  have hdigits : '\n' ∉ Nat.toDigits 10 entry.size := fun hmem =>
    absurd (Text.isDigit_of_mem_toDigits hmem) (by decide)
  have hspaces : '\n' ∉ List.replicate (8 - (Nat.toDigits 10 entry.size).length) ' ' := fun hmem =>
    absurd (List.eq_of_mem_replicate hmem) (by decide)
  simp [entryLine, alignRight, htag, hdigits, hspaces, h]

/-! ### Listings -/

/-- Lines that are written one by one are read back one by one. -/
theorem mapM_readLine? (entries : List Entry) :
    (entries.map fun entry => (entryLine entry).toList).mapM readLine? = some entries := by
  induction entries with
  | nil => rfl
  | cons entry entries ih => simp [readLine?_entryLine, ih]

/-- The listing of some entries is not empty, and breaking it at line breaks gives the lines. -/
theorem splitOn_listing {entries : List Entry} (hsome : entries ≠ [])
    (h : ∀ entry ∈ entries, '\n' ∉ entry.name.toList) :
    listing entries ≠ "" ∧ (listing entries).toList.splitOn '\n' =
      entries.map fun entry => (entryLine entry).toList := by
  have hlines : (listing entries).toList =
      ['\n'].intercalate (entries.map fun entry => (entryLine entry).toList) := by
    rw [listing, String.toList_intercalate, List.map_map]
    rfl
  have hbreaks : ∀ line ∈ entries.map fun entry => (entryLine entry).toList, '\n' ∉ line := by
    intro line hline
    obtain ⟨entry, hentry, rfl⟩ := List.mem_map.1 hline
    exact notMem_entryLine (h entry hentry)
  have hsplit : (listing entries).toList.splitOn '\n' =
      entries.map fun entry => (entryLine entry).toList := by
    rw [hlines]
    exact List.splitOn_intercalate '\n' hbreaks (by simpa using hsome)
  refine ⟨?_, hsplit⟩
  -- The empty text is one empty line, and no line of an entry is empty.
  intro hempty
  obtain ⟨entry, rest, rfl⟩ := List.exists_cons_of_ne_nil hsome
  rw [hempty] at hsplit
  have hfirst : [] = (entryLine entry).toList := (List.cons.inj hsplit).1
  have hline := readLine?_entryLine entry
  rw [← hfirst] at hline
  cases hline

/-- No name has a line break. -/
def IsLegible (entries : List Entry) : Prop :=
  ∀ entry ∈ entries, '\n' ∉ entry.name.toList

instance : DecidablePred IsLegible :=
  fun entries => inferInstanceAs (Decidable (∀ entry ∈ entries, '\n' ∉ entry.name.toList))

/-- **A listing is read back.** -/
theorem readListing?_listing {entries : List Entry} (h : IsLegible entries) :
    readListing? (listing entries) = some entries := by
  by_cases hsome : entries = []
  · subst hsome
    rfl
  · obtain ⟨hempty, hsplit⟩ := splitOn_listing hsome h
    rw [readListing?, if_neg hempty, hsplit, mapM_readLine?]

/-! ### Replies -/

section Replies

variable {config : Config} {events : List Event} {text : String}

/-- What `ls` answers on a success is the listing of what a directory lists. -/
theorem makes_answer_ls [Allocator] {dir : String}
    (h : (answer config (.ls dir)).Makes events (.ok text)) :
    ∃ entries, (Directory.list dir).Makes events (.ok entries) ∧ text = listing entries := by
  rcases Operation.makes_bind h with ⟨e, -, herror⟩ | ⟨before, after, entries, rfl, hlist, hend⟩
  · cases herror
  · obtain ⟨rfl, htext⟩ := Operation.makes_pure hend
    cases htext
    rw [List.append_nil]
    exact ⟨entries, hlist, rfl⟩

/-- What `find` answers is the listing of what is found. -/
theorem makes_answer_find [Allocator] {dir name : String} {kind : EntryKind}
    (h : (answer config (.find dir name kind)).Makes events (.ok text)) :
    ∃ entries, (Directory.find dir name kind).Makes events (.ret entries) ∧
      text = listing entries := by
  rcases Operation.makes_bind h with ⟨e, -, herror⟩ | ⟨before, after, entries, rfl, hfind, hend⟩
  · cases herror
  · obtain ⟨rfl, htext⟩ := Operation.makes_pure hend
    cases htext
    obtain ⟨first, last, found, rfl, hfound, hret⟩ := Program.Makes.of_bind hfind
    obtain ⟨rfl, hsame⟩ := Program.Makes.of_ret hret
    cases hsame
    rw [List.append_nil, List.append_nil]
    exact ⟨entries, hfound, rfl⟩

end Replies

/-- **Listings are uniquely decodable.**  Reading a listing gives back the kinds, the sizes and the
names of its entries, in their order, if no name has a line break; so two listings are the same only
if their entries are. On every volume this makes the replies to `ls` and to `find` say exactly what
was listed and what was found. -/
theorem listing_decodes [Allocator] :
    (∀ entries, IsLegible entries → readListing? (listing entries) = some entries) ∧
      (∀ entries entries', IsLegible entries → IsLegible entries' →
        listing entries = listing entries' → entries = entries') ∧
      (∀ config dir events text, (answer config (.ls dir)).Makes events (.ok text) →
        ∃ entries, (Directory.list dir).Makes events (.ok entries) ∧
          (IsLegible entries → readListing? text = some entries)) ∧
      ∀ config dir name kind events text,
        (answer config (.find dir name kind)).Makes events (.ok text) →
          ∃ entries, (Directory.find dir name kind).Makes events (.ret entries) ∧
            (IsLegible entries → readListing? text = some entries) := by
  refine ⟨fun entries h => readListing?_listing h, ?_, ?_, ?_⟩
  · intro entries entries' h h' hsame
    have hread := readListing?_listing h
    rw [hsame, readListing?_listing h'] at hread
    exact (Option.some.inj hread).symm
  · intro config dir events text h
    obtain ⟨entries, hlist, rfl⟩ := makes_answer_ls h
    exact ⟨entries, hlist, readListing?_listing⟩
  · intro config dir name kind events text h
    obtain ⟨entries, hfind, rfl⟩ := makes_answer_find h
    exact ⟨entries, hfind, readListing?_listing⟩

/-- Names that look like padding, like a size, and like a whole line, behind sizes of one and of
twenty digits. -/
theorem listing_decodes_lookalikes :
    let entries : List Entry := [⟨.file, 3, "  12 a"⟩, ⟨.directory, 18446744073709551615, "7"⟩,
      ⟨.file, 312, "F        3 a"⟩]
    let text := "F        3   12 a\nD 18446744073709551615 7\nF      312 F        3 a"
    IsLegible entries ∧ listing entries = text ∧ readListing? text = some entries := by
  intro entries text
  have hlegible : IsLegible entries := by decide
  have htext : listing entries = text := by decide +kernel
  have hread := (@listing_decodes (.upTo 0 0)).1 entries hlegible
  exact ⟨hlegible, htext, htext ▸ hread⟩

end Reply
end FlashVolume

import FlashVolume.Text.Blank
import Mathlib.Data.List.DropRight
/-!
# Words and blanks

A text is cut at blanks in three ways, and a line is read with all three. Each way is settled
here by what it does to a line that is put together:

| line | cut | result |
| --- | --- | --- |
| blanks, a word, what follows, blanks | `trimChars` | the word and what follows |
| a word and what follows it | `splitChars` | the word, and what stands behind one blank |
| words, each behind a gap, and blanks | `wordChars` | the words |

What follows a word is empty or starts with a blank (`IsBreak`), as else the word would be a
longer one.
-/

namespace FlashVolume
namespace Text

/-- Nothing but blanks. -/
def IsBlanks (cs : List Char) : Prop :=
  ∀ c ∈ cs, isBlank c = true

/-- A word: one character at least, and no blank. -/
structure IsWord (cs : List Char) : Prop where
  ne_nil : cs ≠ []
  not_blank : ∀ c ∈ cs, isBlank c = false

/-- What can follow a word: nothing, or a text that starts with a blank. -/
def IsBreak (cs : List Char) : Prop :=
  ∀ c ∈ cs.head?, isBlank c = true

/-- The last character is a blank. -/
def EndsInBlank (cs : List Char) : Prop :=
  ∃ c ∈ cs.getLast?, isBlank c = true

/-- Words in a line, each of them behind a gap of one blank or more. -/
inductive Spaced : List (List Char) → List Char → Prop where
  | nil : Spaced [] []
  | cons {gap word rest : List Char} {words : List (List Char)} (hgap : IsBlanks gap)
      (hsome : gap ≠ []) (hrest : Spaced words rest) : Spaced (word :: words) (gap ++ word ++ rest)

instance (cs : List Char) : Decidable (IsBlanks cs) :=
  decidable_of_iff (cs.all isBlank = true) List.all_eq_true

instance (cs : List Char) : Decidable (IsWord cs) :=
  decidable_of_iff (cs ≠ [] ∧ cs.all (!isBlank ·) = true)
    ⟨fun h => ⟨h.1, by simpa using h.2⟩, fun h => ⟨h.ne_nil, by simpa using h.not_blank⟩⟩

instance (cs : List Char) : Decidable (EndsInBlank cs) :=
  decidable_of_iff (cs.getLast?.any isBlank = true) (by simp [EndsInBlank, Option.any_eq_true])

variable {cs lead word text tail trail : List Char} {words : List (List Char)}

/-- Blanks behind blanks are blanks. -/
theorem IsBlanks.append {ds : List Char} (hcs : IsBlanks cs) (hds : IsBlanks ds) :
    IsBlanks (cs ++ ds) := fun c hc => (List.mem_append.1 hc).elim (hcs c) (hds c)

/-- Blanks end a word. -/
theorem IsBlanks.isBreak (h : IsBlanks cs) : IsBreak cs :=
  fun c hc => h c (List.mem_of_mem_head? hc)

/-- The front of what ends a word ends one too. -/
theorem IsBreak.of_prefix {ds : List Char} (h : IsBreak cs) (hstart : ds <+: cs) : IsBreak ds := by
  cases ds with
  | nil => exact fun c hc => by simp at hc
  | cons d ds =>
    obtain ⟨rest, rfl⟩ := hstart
    exact fun c hc => h c hc

/-- A gap ends a word, whatever follows. -/
theorem isBreak_append {gap : List Char} (hgap : IsBlanks gap) (hsome : gap ≠ [])
    (rest : List Char) : IsBreak (gap ++ rest) := by
  cases gap with
  | nil => exact absurd rfl hsome
  | cons b gap =>
    intro c hc
    obtain rfl : b = c := by simpa using hc
    exact hgap b List.mem_cons_self

/-- The words of a line are followed by a break, if there is one behind the last of them. -/
theorem Spaced.isBreak_append (h : Spaced words cs) (htail : IsBreak tail) :
    IsBreak (cs ++ tail) := by
  cases h with
  | nil => exact htail
  | cons hgap hsome _ =>
    rw [List.append_assoc, List.append_assoc]
    exact Text.isBreak_append hgap hsome _

/-- A word has characters. -/
theorem IsWord.ne_empty {s : String} (h : IsWord s.toList) : s ≠ "" :=
  mt String.toList_eq_nil_iff.2 h.ne_nil

/-- A word ends in no blank. -/
theorem IsWord.not_endsInBlank (h : IsWord cs) : ¬EndsInBlank cs := by
  rintro ⟨c, hc, hblank⟩
  rw [h.not_blank c (List.mem_of_mem_getLast? hc)] at hblank
  exact Bool.false_ne_true hblank

/-- What stands in front does not change the end. -/
theorem not_endsInBlank_cons (b : Char) (hsome : cs ≠ []) (h : ¬EndsInBlank cs) :
    ¬EndsInBlank (b :: cs) := by
  rintro ⟨c, hc, hblank⟩
  rw [List.getLast?_cons_of_ne_nil hsome] at hc
  exact h ⟨c, hc, hblank⟩

/-- A text ends as its own end does. -/
theorem EndsInBlank.of_suffix {ds : List Char} (h : EndsInBlank ds) (hend : ds <:+ cs) :
    EndsInBlank cs := by
  obtain ⟨front, rfl⟩ := hend
  obtain ⟨c, hc, hblank⟩ := h
  exact ⟨c, List.mem_getLast?_append_of_mem_getLast? hc, hblank⟩

/-! ### Blanks at the ends -/

/-- Blanks in front are dropped. -/
theorem dropWhile_blanks_append (h : IsBlanks lead) (cs : List Char) :
    (lead ++ cs).dropWhile isBlank = cs.dropWhile isBlank :=
  List.dropWhile_append_of_pos h

/-- A word in front stops the dropping. -/
theorem dropWhile_word_append (h : IsWord word) (cs : List Char) :
    (word ++ cs).dropWhile isBlank = word ++ cs := by
  obtain ⟨c, word, rfl⟩ := List.exists_cons_of_ne_nil h.ne_nil
  exact List.dropWhile_cons_of_neg (by simp [h.not_blank c List.mem_cons_self])

/-- Blanks at the end are dropped. -/
theorem rdropWhile_append_blanks (cs : List Char) (h : IsBlanks trail) :
    (cs ++ trail).rdropWhile isBlank = cs.rdropWhile isBlank := by
  have hreverse : ∀ c ∈ trail.reverse, isBlank c = true := fun c hc => h c (List.mem_reverse.1 hc)
  rw [List.rdropWhile, List.rdropWhile, List.reverse_append, List.dropWhile_append_of_pos hreverse]

/-- Without blanks at the end nothing is dropped there. -/
theorem rdropWhile_of_not_endsInBlank (h : ¬EndsInBlank cs) : cs.rdropWhile isBlank = cs :=
  List.rdropWhile_eq_self_iff.2 fun hsome hblank =>
    h ⟨cs.getLast hsome, List.getLast?_eq_some_getLast hsome, hblank⟩

/-- Nothing that is left ends in a blank. -/
theorem not_endsInBlank_rdropWhile (cs : List Char) : ¬EndsInBlank (cs.rdropWhile isBlank) := by
  rintro ⟨c, hc, hblank⟩
  have hsome : cs.rdropWhile isBlank ≠ [] := by
    intro hnil
    rw [hnil] at hc
    simp at hc
  rw [List.getLast?_eq_some_getLast hsome, Option.mem_some_iff] at hc
  exact List.rdropWhile_last_not isBlank cs hsome (hc ▸ hblank)

/-- A word in front is not reached from the end. -/
theorem rdropWhile_word_append (h : IsWord word) (cs : List Char) :
    (word ++ cs).rdropWhile isBlank = word ++ cs.rdropWhile isBlank := by
  have hword : word.reverse.dropWhile isBlank = word.reverse := by
    have hkept := congrArg List.reverse (rdropWhile_of_not_endsInBlank h.not_endsInBlank)
    rwa [List.rdropWhile, List.reverse_reverse] at hkept
  rw [List.rdropWhile, List.reverse_append, List.dropWhile_append]
  split
  · rename_i hnone
    rw [List.isEmpty_iff] at hnone
    rw [hword, List.reverse_reverse, List.rdropWhile, hnone, List.reverse_nil, List.append_nil]
  · rw [List.reverse_append, List.reverse_reverse, List.rdropWhile]

/-- Blanks are trimmed in front first, then at the end. -/
theorem trimChars_eq (cs : List Char) :
    trimChars cs = (cs.dropWhile isBlank).rdropWhile isBlank := rfl

/-- **A trimmed line starts with its first word,** and what follows is only cut at the end. -/
theorem trimChars_word_append (hlead : IsBlanks lead) (hword : IsWord word) (tail : List Char) :
    trimChars (lead ++ word ++ tail) = word ++ tail.rdropWhile isBlank := by
  rw [trimChars_eq, List.append_assoc, dropWhile_blanks_append hlead, dropWhile_word_append hword,
    rdropWhile_word_append hword]

/-- A word with a text behind it is kept, if the text does not end in a blank. -/
theorem trimChars_word_text (hlead : IsBlanks lead) (hword : IsWord word)
    (htext : ¬EndsInBlank text) (htrail : IsBlanks trail) :
    trimChars (lead ++ word ++ (text ++ trail)) = word ++ text := by
  rw [trimChars_word_append hlead hword, rdropWhile_append_blanks text htrail,
    rdropWhile_of_not_endsInBlank htext]

/-- A trimmed text ends in no blank. -/
theorem not_endsInBlank_trimChars (cs : List Char) : ¬EndsInBlank (trimChars cs) :=
  not_endsInBlank_rdropWhile _

/-- Blanks in front are trimmed. -/
theorem trimChars_blanks_append (hlead : IsBlanks lead) (cs : List Char) :
    trimChars (lead ++ cs) = trimChars cs := by
  rw [trimChars_eq, trimChars_eq, dropWhile_blanks_append hlead]

/-- Blanks at the end are trimmed. -/
theorem trimChars_append_blanks (cs : List Char) (htrail : IsBlanks trail) :
    trimChars (cs ++ trail) = trimChars cs := by
  rw [trimChars_eq, trimChars_eq, List.dropWhile_append]
  split
  · rename_i hnone
    rw [List.isEmpty_iff.1 hnone, List.dropWhile_eq_nil_iff.2 htrail]
  · exact rdropWhile_append_blanks _ htrail

/-- A line is what is left of it and the blanks on both sides. -/
theorem exists_eq_append_trimChars (cs : List Char) :
    ∃ lead trail, IsBlanks lead ∧ IsBlanks trail ∧ cs = lead ++ trimChars cs ++ trail := by
  refine ⟨cs.takeWhile isBlank, (cs.dropWhile isBlank).rtakeWhile isBlank,
    fun c hc => List.mem_takeWhile_imp hc, fun c hc => List.mem_rtakeWhile_imp hc, ?_⟩
  rw [trimChars_eq, List.append_assoc, List.rdropWhile_append_rtakeWhile,
    List.takeWhile_append_dropWhile]

/-! ### The first word -/

/-- The first word holds no blank. -/
theorem splitChars_fst_not_blank (cs : List Char) :
    ∀ c ∈ (splitChars cs).1, isBlank c = false := fun c hc => by
  simpa using List.mem_takeWhile_imp hc

/-- What stands behind the first blank ends like the whole. -/
theorem splitChars_snd_suffix (cs : List Char) : (splitChars cs).2.getD [] <:+ cs := by
  have hrest : cs.dropWhile (!isBlank ·) <:+ cs := List.dropWhile_suffix _
  rw [splitChars]
  cases hbehind : cs.dropWhile (!isBlank ·) with
  | nil => exact List.nil_suffix
  | cons b behind => exact (List.suffix_cons b behind).trans (hbehind ▸ hrest)

/-- Behind a word stands what ends it. -/
theorem dropWhile_word (hword : IsWord word) (htail : IsBreak tail) :
    (word ++ tail).dropWhile (!isBlank ·) = tail := by
  rw [List.dropWhile_append_of_pos fun c hc => by simp [hword.not_blank c hc]]
  cases tail with
  | nil => rfl
  | cons b tail => simp [htail b rfl]

/-- A word is cut off from what follows it. -/
theorem splitChars_word_append (hword : IsWord word) (htail : IsBreak tail) :
    splitChars (word ++ tail) = (word, tail.tail?) := by
  have hstop : tail.takeWhile (!isBlank ·) = [] := by
    cases tail with
    | nil => rfl
    | cons b tail => simp [htail b rfl]
  rw [splitChars, dropWhile_word hword htail,
    List.takeWhile_append_of_pos fun c hc => by simp [hword.not_blank c hc], hstop, List.append_nil]

/-- The blank behind the first word goes with the others, when the rest is trimmed once more. -/
theorem trimChars_tail (htail : IsBreak tail) :
    trimChars ((tail.rdropWhile isBlank).tail?.getD []) = trimChars tail := by
  have hsplit : tail.rdropWhile isBlank ++ tail.rtakeWhile isBlank = tail :=
    List.rdropWhile_append_rtakeWhile
  have hblanks : IsBlanks (tail.rtakeWhile isBlank) := fun c hc => List.mem_rtakeWhile_imp hc
  have hkept : trimChars (tail.rdropWhile isBlank) = trimChars tail := by
    rw [← trimChars_append_blanks _ hblanks, hsplit]
  rw [← hkept]
  cases hcase : tail.rdropWhile isBlank with
  | nil => rfl
  | cons b kept =>
    have hb : IsBlanks [b] := by
      rw [hcase] at hsplit
      exact List.forall_mem_singleton.2 (htail b (by rw [← hsplit]; rfl))
    exact (trimChars_blanks_append hb kept).symm

/-- **The first word of a line and the trimmed rest,** whatever blanks stand around them. -/
theorem splitAtBlank_trim {line : String} (hline : line.toList = lead ++ word ++ tail)
    (hlead : IsBlanks lead) (hword : IsWord word) (htail : IsBreak tail) :
    (splitAtBlank (trim line)).1 = String.ofList word ∧
      trim ((splitAtBlank (trim line)).2.getD "") = String.ofList (trimChars tail) := by
  have hbreak := htail.of_prefix (List.rdropWhile_prefix isBlank tail)
  rw [trim, hline, trimChars_word_append hlead hword, splitAtBlank, String.toList_ofList,
    splitChars_word_append hword hbreak]
  refine ⟨rfl, ?_⟩
  rw [← trimChars_tail htail, trim]
  cases (tail.rdropWhile isBlank).tail? <;> simp

/-! ### All words -/

/-- **A blank closes the word that stands in front of it.** -/
theorem foldr_pushChar (cs : List Char) :
    cs.foldr pushChar ([], []) =
      (cs.takeWhile (!isBlank ·), wordChars (cs.dropWhile (!isBlank ·))) := by
  induction cs with
  | nil => rfl
  | cons c cs ih =>
    cases hc : isBlank c with
    | true => simp [pushChar, wordChars, hc]
    | false => simp [pushChar, hc, ih]

/-- Blanks in front of the words do not count. -/
theorem wordChars_blanks_append (hlead : IsBlanks lead) (cs : List Char) :
    wordChars (lead ++ cs) = wordChars cs := by
  induction lead with
  | nil => rfl
  | cons b lead ih =>
    have hrest : IsBlanks lead := fun c hc => hlead c (List.mem_cons_of_mem b hc)
    rw [← ih hrest]
    simp [wordChars, pushChar, hlead b List.mem_cons_self]

/-- Nor do blanks behind them. -/
theorem wordChars_append_blanks (cs : List Char) (htrail : IsBlanks trail) :
    wordChars (cs ++ trail) = wordChars cs := by
  have hnone : trail.foldr pushChar ([], []) = ([], []) := by
    induction trail with
    | nil => rfl
    | cons b trail ih =>
      have hrest : IsBlanks trail := fun c hc => htrail c (List.mem_cons_of_mem b hc)
      simp [pushChar, ih hrest, htrail b List.mem_cons_self]
  rw [wordChars, wordChars, List.foldr_append, hnone]

/-- The words are the first one and those behind it. -/
theorem wordChars_eq (cs : List Char) :
    wordChars cs =
      if (splitChars cs).1.isEmpty then wordChars (cs.dropWhile (!isBlank ·))
      else (splitChars cs).1 :: wordChars (cs.dropWhile (!isBlank ·)) := by
  rw [splitChars]
  conv_lhs => rw [wordChars, foldr_pushChar]

/-- A word that is ended is the first. -/
theorem wordChars_word_append (hword : IsWord word) (htail : IsBreak tail) :
    wordChars (word ++ tail) = word :: wordChars tail := by
  have hnone : word.isEmpty = false := by simpa using hword.ne_nil
  rw [wordChars_eq, splitChars_word_append hword htail, dropWhile_word hword htail, hnone,
    if_neg Bool.false_ne_true]

/-- The words of a trimmed line are the words of the line. -/
theorem wordChars_trimChars (cs : List Char) : wordChars (trimChars cs) = wordChars cs := by
  obtain ⟨lead, trail, hlead, htrail, hcs⟩ := exists_eq_append_trimChars cs
  conv_rhs => rw [hcs, wordChars_append_blanks _ htrail, wordChars_blanks_append hlead]

/-- **Words are read back,** whatever gaps stand between them. -/
theorem wordChars_spaced (hspaced : Spaced words cs) (hwords : ∀ word ∈ words, IsWord word)
    (htrail : IsBlanks trail) : wordChars (cs ++ trail) = words := by
  induction hspaced with
  | nil => rw [wordChars_append_blanks [] htrail]; rfl
  | cons hgap hsome hrest ih =>
    have hword := hwords _ List.mem_cons_self
    have hothers := ih fun word hmem => hwords word (List.mem_cons_of_mem _ hmem)
    rw [List.append_assoc, List.append_assoc, wordChars_blanks_append hgap,
      wordChars_word_append hword (hrest.isBreak_append htrail.isBreak), hothers]

/-- **What is read is a word:** not empty, and without a blank. -/
theorem isWord_of_mem_wordChars (h : word ∈ wordChars cs) : IsWord word := by
  induction cs with
  | nil => cases h
  | cons c cs ih =>
    cases hc : isBlank c with
    | true =>
      have hblank : IsBlanks [c] := List.forall_mem_singleton.2 hc
      exact ih (wordChars_blanks_append hblank cs ▸ h)
    | false =>
      -- The words behind the first one are words of what follows `c`.
      have hbehind : ∀ w ∈ wordChars (cs.dropWhile (!isBlank ·)), w ∈ wordChars cs := by
        intro w hw
        rw [wordChars_eq]
        split
        · exact hw
        · exact List.mem_cons_of_mem _ hw
      have hfirst : (splitChars (c :: cs)).1 ≠ [] := by simp [splitChars, hc]
      rw [wordChars_eq, if_neg (by simpa using hfirst), List.mem_cons] at h
      rcases h with rfl | h
      · exact ⟨hfirst, splitChars_fst_not_blank _⟩
      · exact ih (hbehind word (by simpa [hc] using h))

end Text
end FlashVolume

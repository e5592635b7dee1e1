import FlashVolume.Directory
import FlashVolume.Proofs.Path.Names
import FlashVolume.Proofs.Storage.Runs
import FlashVolume.Proofs.Text.Numerals
import Mathlib.Order.Bounds.Basic
/-!
# The highest history number

Section 10.6 of the specification: `last_history_file`.

Two things stand between the entries of a directory and the highest number among them. A name must
be read as a number, and a number that does not fit must not be taken for another one:
`CarriesNumber` says which names carry a number without saying how it is read
(`historyNumber?_eq_some_iff`). And the directory must have been read to its end: `IsEnumeration`
tells the events of an enumeration that comes to the end mark from those of one that fails, at the
`opendir` or at any `readdir` (`Operation.makes_collect_iff`).

What is answered is then the greatest number of a set (`isGreatest_foldl`), so the order in which
the directory shows its entries does not count.
-/

universe u

namespace FlashVolume

/-! ### Directories that are read to their end, or to a failure -/

/-- The reads of an open directory up to the end mark, or up to the one that fails. -/
inductive IsReadOut (dir : DirHandle) : List Entry → Option StorageError → List Event → Prop where
  | ended (mark : Entry) (hend : mark.isEnd = true) :
      IsReadOut dir [] none [⟨.readdir dir, .ok mark⟩]
  | failed (e : StorageError) : IsReadOut dir [] (some e) [⟨.readdir dir, .error e⟩]
  | read (entry : Entry) (hend : entry.isEnd = false) {entries : List Entry}
      {error : Option StorageError} {events : List Event}
      (rest : IsReadOut dir entries error events) :
      IsReadOut dir (entry :: entries) error (⟨.readdir dir, .ok entry⟩ :: events)

/-- The events of an enumeration, the entries that it shows and the error that ends it early. A pass
of `find` (`IsPass`) does not tell a failure from the end mark; this does. What the `closedir` is
answered is left open. -/
inductive IsEnumeration (path : String) : List Entry → Option StorageError → List Event → Prop where
  | refused (e : StorageError) : IsEnumeration path [] (some e) [⟨.opendir path, .error e⟩]
  | opened (dir : DirHandle) (closed : Except StorageError Unit) {entries : List Entry}
      {error : Option StorageError} {events : List Event}
      (reads : IsReadOut dir entries error events) :
      IsEnumeration path entries error
        (⟨.opendir path, .ok dir⟩ :: events ++ [⟨.closedir dir, closed⟩])

namespace Program

variable {α γ : Type} {dir : DirHandle} {visit : γ → Entry → γ} {acc : γ} {a : α}
  {next : γ → Option StorageError → Program α}

/-- A visitor that never stops is shown all that is read out. -/
theorem exists_isReadOut {events : List Event}
    (h : (scan dir (fun acc entry => .yield (visit acc entry)) acc next).Makes events (ret a)) :
    ∃ entries error before after, events = before ++ after ∧ IsReadOut dir entries error before ∧
      (next (entries.foldl visit acc) error).Makes after (ret a) := by
  induction events generalizing acc with
  | nil => cases h
  | cons event events ih =>
    cases h with
    | step first rest =>
      cases first with
      | failed _ _ _ _ e => exact ⟨[], some e, [_], events, rfl, .failed e, rest⟩
      | ended _ _ _ _ mark hend => exact ⟨[], none, [_], events, rfl, .ended mark hend, rest⟩
      | stopped _ _ _ _ _ entry hend hvisit => cases hvisit
      | passed _ _ _ _ _ entry hend hvisit =>
        cases hvisit
        obtain ⟨entries, error, before, after, rfl, hreads, hnext⟩ := ih rest
        exact ⟨entry :: entries, error, _ :: before, after, rfl, .read entry hend hreads, hnext⟩

/-- Every way of reading a directory out can happen. -/
theorem makes_scan_of_isReadOut {entries : List Entry} {error : Option StorageError}
    {before after : List Event} (hreads : IsReadOut dir entries error before)
    (hnext : (next (entries.foldl visit acc) error).Makes after (ret a)) :
    (scan dir (fun acc entry => .yield (visit acc entry)) acc next).Makes (before ++ after)
      (ret a) := by
  induction hreads generalizing acc with
  | ended mark hend => exact .step (.ended _ _ _ _ mark hend) hnext
  | failed e => exact .step (.failed _ _ _ _ e) hnext
  | read entry hend rest ih => exact .step (.passed _ _ _ _ _ entry hend rfl) (ih hnext)

/-- **What an enumeration makes of a directory,** in full: it shows the visitor each entry, and
hands on the error if there is one. -/
theorem makes_enumerate_iff {path : String} {start : γ} {error : Option StorageError}
    {events : List Event} :
    (Directory.enumerate path (fun acc entry => .yield (visit acc entry)) start).Makes events
        (ret (acc, error)) ↔
      ∃ entries, IsEnumeration path entries error events ∧ acc = entries.foldl visit start := by
  constructor
  · intro h
    obtain ⟨answer, rest, rfl, hrest⟩ := Makes.of_call h
    cases answer with
    | error e =>
      obtain ⟨rfl, hend⟩ := Makes.of_ret hrest
      cases hend
      exact ⟨[], .refused e, rfl⟩
    | ok dir =>
      obtain ⟨entries, error, before, after, rfl, hreads, hclose⟩ := exists_isReadOut hrest
      obtain ⟨closed, last, rfl, hlast⟩ := Makes.of_call hclose
      obtain ⟨rfl, hend⟩ := Makes.of_ret hlast
      cases hend
      exact ⟨entries, .opened dir closed hreads, rfl⟩
  · rintro ⟨entries, henum, rfl⟩
    cases henum with
    | refused e => exact .step (.call _ _ _) (.start _)
    | opened dir closed hreads =>
      exact .step (.call _ _ _) (makes_scan_of_isReadOut hreads (.step (.call _ _ _) (.start _)))

end Program

/-- An operation that collects from the entries of a directory. -/
theorem Operation.makes_collect_iff {γ : Type} {dir : String} {visit : γ → Entry → γ} {start : γ}
    {events : List Event} {result : Except Error γ} :
    (Directory.collect dir visit start).Makes events result ↔
      ∃ entries error, IsEnumeration dir entries error events ∧
        result = error.elim (.ok (entries.foldl visit start)) fun e => .error (.ofStorage e) := by
  have hrun : (Directory.collect dir visit start).run =
      (Directory.enumerate dir (fun acc entry => .yield (visit acc entry)) start).bind
        fun found => .ret (found.2.elim (.ok found.1) fun e => .error (.ofStorage e)) := by
    rw [Directory.collect, run_ofProgram_bind]
    congr 1
    funext found
    rcases found with ⟨acc, none | e⟩ <;> rfl
  rw [Makes, hrun]
  constructor
  · intro h
    obtain ⟨before, after, ⟨acc, error⟩, rfl, henum, hret⟩ := Program.Makes.of_bind h
    obtain ⟨rfl, rfl⟩ := Program.Makes.of_ret hret
    obtain ⟨entries, hentries, rfl⟩ := Program.makes_enumerate_iff.1 henum
    rw [List.append_nil]
    exact ⟨entries, error, hentries, rfl⟩
  · rintro ⟨entries, error, henum, rfl⟩
    exact (Program.makes_enumerate_iff.2 ⟨entries, henum, rfl⟩).bind _

/-- The enumeration decides the result. -/
theorem IsEnumeration.makes_collect_iff {γ : Type} {dir : String} {visit : γ → Entry → γ}
    {start : γ} {entries : List Entry} {error : Option StorageError} {events : List Event}
    (henum : IsEnumeration dir entries error events) {result : Except Error γ} :
    (Directory.collect dir visit start).Makes events result ↔
      result = error.elim (.ok (entries.foldl visit start)) fun e => .error (.ofStorage e) := by
  have hmakes : (Directory.collect dir visit start).Makes events
      (error.elim (.ok (entries.foldl visit start)) fun e => .error (.ofStorage e)) :=
    Operation.makes_collect_iff.2 ⟨entries, error, henum, rfl⟩
  constructor
  · intro h
    exact Program.ret.inj (h.unique hmakes)
  · rintro rfl
    exact hmakes

namespace Directory

/-! ### Numbers behind a stem -/

/-- The name is the stem with a number behind it: digits up to the first character that is none, at
least one, whose value has 32 bits. There can be zeros in front, and anything behind. -/
def CarriesNumber (stem name : String) (n : Nat) : Prop :=
  ∃ digits rest : List Char, name.toList = stem.toList ++ (digits ++ rest) ∧
    digits ≠ [] ∧ (∀ c ∈ digits, c.isDigit = true) ∧ (∀ c ∈ rest.head?, c.isDigit = false) ∧
    Nat.ofDigitChars 10 digits 0 = n ∧ n ≤ Word.maxUnsigned32

/-- Digits end at the first character that is none. -/
theorem takeWhile_isDigit {digits rest : List Char} (hdigits : ∀ c ∈ digits, c.isDigit = true)
    (hrest : ∀ c ∈ rest.head?, c.isDigit = false) :
    (digits ++ rest).takeWhile Char.isDigit = digits := by
  rw [List.takeWhile_append_of_pos hdigits]
  cases rest with
  | nil => rw [List.takeWhile_nil, List.append_nil]
  | cons c rest =>
    have hc : ¬c.isDigit = true := by simpa using hrest c rfl
    rw [List.takeWhile_cons_of_neg hc, List.append_nil]

/-- **A number is read exactly where a name carries it.** -/
theorem historyNumber?_eq_some_iff {stem name : String} {n : Nat} :
    historyNumber? stem name = some n ↔ CarriesNumber stem name n := by
  have hread : historyNumber? stem name = some n ↔ ∃ rest, name = stem ++ rest ∧
      Text.digits? (rest.toList.takeWhile Char.isDigit) = some n ∧ n ≤ Word.maxUnsigned32 := by
    simp only [historyNumber?, bind, Option.bind_eq_some_iff, Text.stripStem?_eq_some,
      Option.filter_eq_some_iff, decide_eq_true_iff]
  rw [hread]
  constructor
  · rintro ⟨rest, rfl, hdigits, hfits⟩
    obtain ⟨hsome, hall, hvalue⟩ := Text.digits?_eq_some_iff.1 hdigits
    refine ⟨_, rest.toList.dropWhile Char.isDigit, ?_, hsome, hall, ?_, hvalue, hfits⟩
    · rw [String.toList_append, List.takeWhile_append_dropWhile]
    · intro c hc
      have hhead := List.head?_dropWhile_not Char.isDigit rest.toList
      rwa [Option.mem_def.1 hc] at hhead
  · rintro ⟨digits, rest, hname, hsome, hall, hrest, hvalue, hfits⟩
    refine ⟨String.ofList (digits ++ rest), ?_, ?_, hfits⟩
    · rw [← String.toList_inj, hname, String.toList_append, String.toList_ofList]
    · rw [String.toList_ofList, takeWhile_isDigit hall hrest]
      exact Text.digits?_eq_some_iff.2 ⟨hsome, hall, hvalue⟩

/-- A number that fits is carried by the stem with its digits behind. -/
theorem carriesNumber_toString (stem : String) {n : Nat} (h : n ≤ Word.maxUnsigned32) :
    CarriesNumber stem (stem ++ toString n) n := by
  refine ⟨Nat.toDigits 10 n, [], ?_, Nat.toDigits_ne_nil,
    fun c hc => Text.isDigit_of_mem_toDigits hc, nofun, Nat.ofDigitChars_ten_toDigits, h⟩
  rw [String.toList_append, Nat.toString_eq_ofList_toDigits, String.toList_ofList, List.append_nil]

/-- The numbers behind the stem among some entries, and 0. -/
def numbers (stem : String) (entries : List Entry) : Set Nat :=
  {n | n = 0 ∨ ∃ entry ∈ entries, CarriesNumber stem entry.name n}

/-- The numbers of a history are zero and those its entries carry. -/
theorem mem_numbers {stem : String} {entries : List Entry} {n : Nat} :
    n ∈ numbers stem entries ↔ n = 0 ∨ ∃ entry ∈ entries, CarriesNumber stem entry.name n :=
  Iff.rfl

/-- The numbers are those of the entries, whatever their order is. -/
theorem numbers_congr {stem : String} {entries entries' : List Entry}
    (h : ∀ entry, entry ∈ entries ↔ entry ∈ entries') :
    numbers stem entries = numbers stem entries' :=
  Set.ext fun n => by simp only [mem_numbers, h]

/-- Entries that come later add their own numbers. -/
theorem numbers_append (stem : String) (entries entries' : List Entry) :
    numbers stem (entries ++ entries') = numbers stem entries ∪ numbers stem entries' :=
  Set.ext fun n => by
    simp only [Set.mem_union, mem_numbers, List.mem_append, or_and_right, exists_or]
    exact or_or_distrib_left

/-- What one entry counts for. -/
theorem isGreatest_singleton (stem : String) (entry : Entry) :
    IsGreatest (numbers stem [entry]) ((historyNumber? stem entry.name).getD 0) := by
  have hcarries : ∀ n, n ∈ numbers stem [entry] ↔
      n = 0 ∨ historyNumber? stem entry.name = some n := by
    intro n
    simp only [mem_numbers, List.mem_singleton, exists_eq_left, historyNumber?_eq_some_iff]
  cases hnumber : historyNumber? stem entry.name with
  | none =>
    refine ⟨.inl rfl, fun n hn => ?_⟩
    rcases (hcarries n).1 hn with rfl | hsome
    · exact Nat.le_refl 0
    · rw [hnumber] at hsome
      cases hsome
  | some n =>
    refine ⟨(hcarries n).2 (.inr hnumber), fun m hm => ?_⟩
    rcases (hcarries m).1 hm with rfl | hsome
    · exact Nat.zero_le n
    · rw [hnumber] at hsome
      exact Nat.le_of_eq (Option.some.inj hsome).symm

/-- **The fold finds the greatest number.**  By induction from the end: one more entry adds its
number to the set, if it carries one. -/
theorem isGreatest_foldl (stem : String) (entries : List Entry) :
    IsGreatest (numbers stem entries)
      (entries.foldl (fun highest entry => max highest ((historyNumber? stem entry.name).getD 0))
        0) := by
  induction entries using List.reverseRecOn with
  | nil =>
    refine ⟨.inl rfl, fun n hn => ?_⟩
    rcases hn with rfl | ⟨entry, hentry, -⟩
    · exact Nat.le_refl 0
    · exact absurd hentry List.not_mem_nil
  | append_singleton entries entry ih =>
    rw [List.foldl_concat, numbers_append]
    exact ih.union (isGreatest_singleton stem entry)

/-! ### The answer -/

/-- **The loop as a maximum**: behind its two checks, the scan of a history keeps the greater of
what it has and what the entry carries. -/
theorem lastHistoryNumber_eq {dir stem : String} (hdir : dir ≠ "") (hstem : stem ≠ "") :
    lastHistoryNumber dir stem = collect dir
      (fun highest entry => max highest ((historyNumber? stem entry.name).getD 0)) 0 := by
  have hsome : ¬(dir.isEmpty = true ∨ stem.isEmpty = true) := by simp [hdir, hstem]
  rw [lastHistoryNumber, if_neg hsome]

/-- What is answered to the events of an enumeration. -/
theorem makes_lastHistoryNumber {dir stem : String} (hdir : dir ≠ "") (hstem : stem ≠ "")
    {entries : List Entry} {error : Option StorageError} {events : List Event}
    (henum : IsEnumeration dir entries error events) :
    ∃ n, IsGreatest (numbers stem entries) n ∧ ∀ result,
      (lastHistoryNumber dir stem).Makes events result ↔
        result = error.elim (.ok n) fun e => .error (.ofStorage e) := by
  rw [lastHistoryNumber_eq hdir hstem]
  exact ⟨_, isGreatest_foldl stem entries, fun result => henum.makes_collect_iff⟩

/-- **The highest number, or the error.**  On every volume, and for a directory and a stem that are
not empty, every run is an enumeration of the directory.

* If it comes to the end mark, the answer is the greatest number that an entry carries behind the
  stem, or 0. Numbers of more than 32 bits are not counted as any number.
* If a call fails on the way, the answer is the error of that call, whatever has been seen before.

So the order of the entries does not count, and no entry that was shown has the stem with a higher
number of 32 bits for its name. On a backend such a run is made, with the answers of the backend. -/
theorem lastHistoryNumber_greatest {dir stem : String} (hdir : dir ≠ "") (hstem : stem ≠ "") :
    (∀ events result, (lastHistoryNumber dir stem).Makes events result →
      ∃ entries error, IsEnumeration dir entries error events) ∧
    (∀ entries events, IsEnumeration dir entries none events →
      ∃ n, IsGreatest (numbers stem entries) n ∧
        ∀ result, (lastHistoryNumber dir stem).Makes events result ↔ result = .ok n) ∧
    (∀ entries e events, IsEnumeration dir entries (some e) events →
      ∀ result, (lastHistoryNumber dir stem).Makes events result ↔
        result = .error (.ofStorage e)) ∧
    (∀ entries entries' events events' result, (∀ entry, entry ∈ entries ↔ entry ∈ entries') →
      IsEnumeration dir entries none events → IsEnumeration dir entries' none events' →
      ((lastHistoryNumber dir stem).Makes events result ↔
        (lastHistoryNumber dir stem).Makes events' result)) ∧
    (∀ entries events n, IsEnumeration dir entries none events →
      (lastHistoryNumber dir stem).Makes events (.ok n) →
      ∀ k, n < k → k ≤ Word.maxUnsigned32 → ∀ entry ∈ entries, entry.name ≠ stem ++ toString k) ∧
    ∀ {σ : Type u} (B : Backend σ) (s : σ), ∃ events,
      B.Answers s events ((lastHistoryNumber dir stem).run.run B s).2 ∧
      (lastHistoryNumber dir stem).Makes events ((lastHistoryNumber dir stem).run.run B s).1 := by
  refine ⟨?_, ?_, ?_, ?_, ?_, ?_⟩
  · intro events result h
    rw [lastHistoryNumber_eq hdir hstem] at h
    obtain ⟨entries, error, henum, -⟩ := Operation.makes_collect_iff.1 h
    exact ⟨entries, error, henum⟩
  · intro entries events henum
    exact makes_lastHistoryNumber hdir hstem henum
  · intro entries e events henum
    obtain ⟨n, -, hresult⟩ := makes_lastHistoryNumber hdir hstem henum
    exact hresult
  · intro entries entries' events events' result hsame henum henum'
    obtain ⟨n, hn, hresult⟩ := makes_lastHistoryNumber hdir hstem henum
    obtain ⟨n', hn', hresult'⟩ := makes_lastHistoryNumber hdir hstem henum'
    rw [numbers_congr hsame] at hn
    rw [hresult, hresult', hn.unique hn']
  · intro entries events n henum hmakes k hless hfits entry hentry hname
    obtain ⟨n', hn', hresult⟩ := makes_lastHistoryNumber hdir hstem henum
    have hn : n = n' := Except.ok.inj ((hresult _).1 hmakes)
    have hcarries : CarriesNumber stem entry.name k := hname ▸ carriesNumber_toString stem hfits
    have hle : k ≤ n' := hn'.2 (.inr ⟨entry, hentry, hcarries⟩)
    omega
  · intro σ B s
    obtain ⟨events, hmakes, hanswers⟩ :=
      Program.exists_answers_run B (lastHistoryNumber dir stem).run s
    exact ⟨events, hanswers, hmakes⟩

/-- Zeros in front, a number of 33 bits, text behind a number, the bare stem and a digit that is not
ASCII: 12 is the greatest. If the last read fails there is no answer but the failure. -/
theorem lastHistoryNumber_greatest_numerals :
    let entries : List Entry := [⟨.file, 1, "log007"⟩, ⟨.directory, 0, "log4294967296"⟩,
      ⟨.directory, 0, "log12x34"⟩, ⟨.file, 2, "log"⟩, ⟨.file, 3, "log٣"⟩]
    let reads := fun last => (entries.map fun entry => ⟨.readdir ⟨0⟩, .ok entry⟩) ++ [last]
    let events := fun last => ⟨.opendir "/lfs", .ok ⟨0⟩⟩ :: reads last ++ [⟨.closedir ⟨0⟩, .ok ()⟩]
    IsGreatest (numbers "log" entries) 12 ∧
      (lastHistoryNumber "/lfs" "log").Makes (events ⟨.readdir ⟨0⟩, .ok .endMark⟩) (.ok 12) ∧
      ∀ result, (lastHistoryNumber "/lfs" "log").Makes
          (events ⟨.readdir ⟨0⟩, .error .noSpace⟩) result ↔
        result = .error (.ofStorage .noSpace) := by
  intro entries reads events
  have hended : IsEnumeration "/lfs" entries none (events ⟨.readdir ⟨0⟩, .ok .endMark⟩) :=
    .opened ⟨0⟩ (.ok ()) <| .read _ rfl <| .read _ rfl <| .read _ rfl <| .read _ rfl <|
      .read _ rfl <| .ended _ rfl
  have hfailed : IsEnumeration "/lfs" entries (some .noSpace)
      (events ⟨.readdir ⟨0⟩, .error .noSpace⟩) :=
    .opened ⟨0⟩ (.ok ()) <| .read _ rfl <| .read _ rfl <| .read _ rfl <| .read _ rfl <|
      .read _ rfl <| .failed _
  have hgreatest : IsGreatest (numbers "log" entries) 12 := isGreatest_foldl "log" entries
  obtain ⟨-, hanswer, hfailure, -⟩ :=
    lastHistoryNumber_greatest.{0} (show "/lfs" ≠ "" by decide) (show "log" ≠ "" by decide)
  obtain ⟨n, hn, hresult⟩ := hanswer entries _ hended
  refine ⟨hgreatest, (hresult _).2 ?_, hfailure entries _ _ hfailed⟩
  rw [hn.unique hgreatest]

end Directory
end FlashVolume

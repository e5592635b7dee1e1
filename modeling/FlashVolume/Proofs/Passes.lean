import FlashVolume.Proofs.Memory.Children
import FlashVolume.Proofs.Storage.Finding
import FlashVolume.Proofs.Storage.Runs
import Mathlib.Data.List.Infix
/-!
# Passes over a directory

Section 4.3 of the specification: `find`.

`find` reads a directory twice, and between any two of its calls the directory may change and a call
may fail. What it answers depends on the entries that the two passes are shown, and on nothing else:

| first pass | second pass | answer |
| --- | --- | --- |
| shows no match | is not made | nothing |
| shows more matches than there is room for | is not made | nothing |
| shows `c` matches | shows fewer | all matches of the second pass |
| shows `c` matches | shows `c` | these, and nothing is read behind the last of them |

`IsPass` reads the entries that were shown off the events of a run, so the statement is about every
volume (`Directory.find_passes`).
-/

universe u

namespace FlashVolume

namespace Directory

/-- The entry is of the kind, and its name contains the text. -/
def Matches (name : String) (kind : EntryKind) (entry : Entry) : Prop :=
  entry.kind = kind ∧ name.toList <:+: entry.name.toList

instance (name : String) (kind : EntryKind) : DecidablePred (Matches name kind) :=
  fun _ => inferInstanceAs (Decidable (_ ∧ _))

/-- Looking for a part at every place decides whether the part stands anywhere. -/
theorem containsChars_iff {part cs : List Char} :
    Text.containsChars part cs = true ↔ part <:+: cs := by
  induction cs with
  | nil => simp [Text.containsChars]
  | cons c cs ih =>
    rw [Text.containsChars, Bool.or_eq_true, List.isPrefixOf_iff_prefix, ih, List.infix_cons_iff]

/-- The test of the enumerations decides whether an entry matches. -/
theorem isMatch_iff {name : String} {kind : EntryKind} {entry : Entry} :
    isMatch name kind entry = true ↔ Matches name kind entry := by
  rw [isMatch, Bool.and_eq_true, decide_eq_true_iff, Text.contains, containsChars_iff, Matches]

/-- `isMatch` picks the entries that satisfy the mask. -/
theorem filter_isMatch (name : String) (kind : EntryKind) (entries : List Entry) :
    entries.filter (isMatch name kind) = entries.filter (Matches name kind ·) :=
  List.filter_congr fun entry _ => by rw [Bool.eq_iff_iff, isMatch_iff, decide_eq_true_iff]

end Directory

/-! ### What a pass is shown -/

/-- The reads of an open directory that show some entries and then fail, come to the end mark, or
are given up. -/
inductive IsReading (dir : DirHandle) : List Entry → Bool → List Event → Prop where
  | failed (e : StorageError) : IsReading dir [] false [⟨.readdir dir, .error e⟩]
  | ended (mark : Entry) (hend : mark.isEnd = true) :
      IsReading dir [] false [⟨.readdir dir, .ok mark⟩]
  | stopped : IsReading dir [] true []
  | read (entry : Entry) (hend : entry.isEnd = false) {shown : List Entry} {stopped : Bool}
      {events : List Event} (rest : IsReading dir shown stopped events) :
      IsReading dir (entry :: shown) stopped (⟨.readdir dir, .ok entry⟩ :: events)

/-- The events of a pass over a directory: it cannot be opened, or it is opened, read and closed. -/
inductive IsPass (path : String) : List Entry → Bool → List Event → Prop where
  | refused (e : StorageError) : IsPass path [] false [⟨.opendir path, .error e⟩]
  | read (dir : DirHandle) (closed : Except StorageError Unit) {shown : List Entry}
      {stopped : Bool} {events : List Event} (reading : IsReading dir shown stopped events) :
      IsPass path shown stopped
        (⟨.opendir path, .ok dir⟩ :: events ++ [⟨.closedir dir, closed⟩])

/-- The number of times that a directory is opened. -/
def openings (events : List Event) : Nat :=
  events.countP fun event => event.call.name = .opendir

/-- The reading of a directory opens none. -/
theorem IsReading.openings {dir : DirHandle} {shown : List Entry} {stopped : Bool}
    {events : List Event} (h : IsReading dir shown stopped events) : openings events = 0 := by
  induction h with
  | failed e => rfl
  | ended mark hend => rfl
  | stopped => rfl
  | read entry hend rest ih => exact ih

/-- A pass opens the directory once. -/
theorem IsPass.openings {path : String} {shown : List Entry} {stopped : Bool} {events : List Event}
    (h : IsPass path shown stopped events) : openings events = 1 := by
  cases h with
  | refused e => rfl
  | read dir closed reading =>
    have hreads := reading.openings
    rw [FlashVolume.openings] at hreads
    rw [FlashVolume.openings, List.cons_append, List.countP_cons, List.countP_append, hreads]
    rfl

/-- A visitor is shown entries while it goes on. The indices are what it has before, the entries,
whether it has stopped, and what it has then. -/
inductive Watches {γ : Type} (visit : γ → Entry → ForInStep γ) :
    γ → List Entry → Bool → γ → Prop where
  | done (acc : γ) : Watches visit acc [] false acc
  | stopped {acc acc' : γ} {entry : Entry} (hvisit : visit acc entry = .done acc') :
      Watches visit acc [entry] true acc'
  | passed {acc acc' acc'' : γ} {entry : Entry} {shown : List Entry} {stopped : Bool}
      (hvisit : visit acc entry = .yield acc') (rest : Watches visit acc' shown stopped acc'') :
      Watches visit acc (entry :: shown) stopped acc''

namespace Program

variable {α γ : Type}

/-- **A scan shows its visitor what it reads.** -/
theorem makes_scan {dir : DirHandle} {visit : γ → Entry → ForInStep γ} {acc : γ}
    {next : γ → Option StorageError → Program α} {events : List Event} {a : α}
    (h : (scan dir visit acc next).Makes events (ret a)) :
    ∃ shown stopped before after acc' error, events = before ++ after ∧
      IsReading dir shown stopped before ∧ Watches visit acc shown stopped acc' ∧
      (next acc' error).Makes after (ret a) := by
  induction events generalizing acc with
  | nil => cases h
  | cons event events ih =>
    cases h with
    | step first rest =>
      cases first with
      | failed _ _ _ _ e =>
        exact ⟨[], false, [_], events, acc, some e, rfl, .failed e, .done acc, rest⟩
      | ended _ _ _ _ mark hend =>
        exact ⟨[], false, [_], events, acc, none, rfl, .ended mark hend, .done acc, rest⟩
      | stopped _ _ _ acc' _ entry hend hvisit =>
        exact ⟨[entry], true, [_], events, acc', none, rfl, .read entry hend .stopped,
          .stopped hvisit, rest⟩
      | passed _ _ _ acc' _ entry hend hvisit =>
        obtain ⟨shown, stopped, before, after, acc'', error, rfl, hreading, hwatches, hnext⟩ :=
          ih rest
        exact ⟨entry :: shown, stopped, _ :: before, after, acc'', error, rfl,
          .read entry hend hreading, .passed hvisit hwatches, hnext⟩

end Program

namespace Directory

/-- **An enumeration is one pass.** -/
theorem makes_enumerate {γ : Type} {path : String} {visit : γ → Entry → ForInStep γ} {start acc : γ}
    {error : Option StorageError} {events : List Event}
    (h : (enumerate path visit start).Makes events (.ret (acc, error))) :
    ∃ shown stopped, IsPass path shown stopped events ∧ Watches visit start shown stopped acc := by
  obtain ⟨answer, events, rfl, hrest⟩ := Program.Makes.of_call h
  cases answer with
  | error e =>
    obtain ⟨rfl, hend⟩ := Program.Makes.of_ret hrest
    cases hend
    exact ⟨[], false, .refused e, .done start⟩
  | ok dir =>
    obtain ⟨shown, stopped, before, after, acc', error, rfl, hreading, hwatches, hclose⟩ :=
      Program.makes_scan hrest
    obtain ⟨closed, events, rfl, hlast⟩ := Program.Makes.of_call hclose
    obtain ⟨rfl, hend⟩ := Program.Makes.of_ret hlast
    cases hend
    exact ⟨shown, stopped, .read dir closed hreading, hwatches⟩

/-! ### The two visitors -/

section Visitors

variable {name : String} {kind : EntryKind} {shown : List Entry} {stopped : Bool}

/-- Counting does not stop. -/
theorem watches_count {count count' : Nat}
    (h : Watches (countMatches name kind) count shown stopped count') :
    stopped = false ∧ count' = count + (shown.filter (Matches name kind ·)).length := by
  induction h with
  | done acc => exact ⟨rfl, rfl⟩
  | stopped hdone => cases hdone
  | @passed acc acc' acc'' entry shown stopped hyield rest ih =>
    obtain ⟨hstopped, hcount⟩ := ih
    refine ⟨hstopped, ?_⟩
    simp only [countMatches, ForInStep.yield.injEq] at hyield
    rw [hcount, ← hyield]
    by_cases hmatch : Matches name kind entry
    · rw [if_pos (isMatch_iff.2 hmatch), List.filter_cons_of_pos (by simpa using hmatch),
        List.length_cons]
      omega
    · rw [if_neg (mt isMatch_iff.1 hmatch), List.filter_cons_of_neg (by simpa using hmatch)]

/-- An entry is collected if it matches, and the collection stops if that makes up the number. -/
theorem collectMatches_cases (name : String) (kind : EntryKind) {count : Nat} {found : List Entry}
    (hfound : found.length < count) (entry : Entry) :
    (found ++ [entry].filter (Matches name kind ·)).length < count ∧
      collectMatches name kind count found entry =
        .yield (found ++ [entry].filter (Matches name kind ·)) ∨
    (found ++ [entry].filter (Matches name kind ·)).length = count ∧ Matches name kind entry ∧
      collectMatches name kind count found entry =
        .done (found ++ [entry].filter (Matches name kind ·)) := by
  by_cases hmatch : Matches name kind entry
  · have hkept : [entry].filter (Matches name kind ·) = [entry] := by simp [hmatch]
    rw [collectMatches, if_pos (isMatch_iff.2 hmatch), hkept]
    by_cases hmore : (found ++ [entry]).length < count
    · exact .inl ⟨hmore, if_pos hmore⟩
    · refine .inr ⟨?_, hmatch, if_neg hmore⟩
      rw [List.length_append, List.length_singleton] at hmore ⊢
      omega
  · have hnone : [entry].filter (Matches name kind ·) = [] := by simp [hmatch]
    rw [collectMatches, if_neg (mt isMatch_iff.1 hmatch), hnone, List.append_nil]
    exact .inl ⟨hfound, if_pos hfound⟩

/-- **Collecting takes every match, and stops at the one that makes up the number.** -/
theorem watches_collect {count : Nat} {found found' : List Entry} (hfound : found.length < count)
    (h : Watches (collectMatches name kind count) found shown stopped found') :
    found' = found ++ shown.filter (Matches name kind ·) ∧
      (stopped = false → found'.length < count) ∧
      (stopped = true → found'.length = count ∧
        ∃ before last, shown = before ++ [last] ∧ Matches name kind last) := by
  -- By induction on what is shown; what has been found before stays in front.
  induction h with
  | done acc => simp [hfound]
  | @stopped acc acc' entry hdone =>
    rcases collectMatches_cases name kind hfound entry with
      ⟨-, hyield⟩ | ⟨hlength, hmatch, hdone'⟩
    · rw [hyield] at hdone
      cases hdone
    · rw [hdone'] at hdone
      cases hdone
      exact ⟨rfl, nofun, fun _ => ⟨hlength, [], entry, rfl, hmatch⟩⟩
  | @passed acc acc' acc'' entry shown stopped hyield rest ih =>
    rcases collectMatches_cases name kind hfound entry with
      ⟨hlength, hyield'⟩ | ⟨-, -, hdone⟩
    · rw [hyield'] at hyield
      cases hyield
      obtain ⟨hall, hmore, hstop⟩ := ih hlength
      refine ⟨?_, hmore, ?_⟩
      · rw [hall, List.append_assoc, ← List.filter_append, List.singleton_append]
      · intro hstopped
        obtain ⟨hcount, before, last, rfl, hmatch⟩ := hstop hstopped
        exact ⟨hcount, entry :: before, last, rfl, hmatch⟩
    · rw [hdone] at hyield
      cases hyield

end Visitors

/-! ### Finding -/

variable {dir name : String} {kind : EntryKind}

/-- What a second pass finds that is to find `count` matches: those that it is shown, and they are
the first of all that it was going to be shown. -/
theorem makes_collect {count : Nat} (hcount : count ≠ 0) {events : List Event} {found : List Entry}
    {error : Option StorageError}
    (h : (enumerate dir (collectMatches name kind count) []).Makes events (.ret (found, error))) :
    ∃ shown stopped, IsPass dir shown stopped events ∧ (stopped = true ↔ found.length = count) ∧
      (stopped = true → ∃ before last, shown = before ++ [last] ∧ Matches name kind last) ∧
      ∀ more, (stopped = false → more = []) →
        found = ((shown ++ more).filter (Matches name kind ·)).take
          (min count ((shown ++ more).filter (Matches name kind ·)).length) := by
  obtain ⟨shown, stopped, hpass, hwatches⟩ := makes_enumerate h
  obtain ⟨hall, hmore, hstop⟩ := watches_collect (Nat.pos_of_ne_zero hcount) hwatches
  rw [List.nil_append] at hall
  refine ⟨shown, stopped, hpass, ?_, fun hstopped => (hstop hstopped).2, ?_⟩
  · cases stopped with
    | true => exact iff_of_true rfl (hstop rfl).1
    | false => exact iff_of_false Bool.false_ne_true (Nat.ne_of_lt (hmore rfl))
  · intro more hnone
    rw [List.filter_append, ← hall]
    cases stopped with
    | true =>
      have hlength :
          min count (found ++ more.filter (Matches name kind ·)).length = found.length := by
        rw [List.length_append, (hstop rfl).1]
        omega
      rw [hlength, List.take_left]
    | false =>
      have hless : found.length < count := hmore rfl
      rw [hnone rfl, List.filter_nil, List.append_nil, Nat.min_eq_right (Nat.le_of_lt hless),
        List.take_length]

end Directory

/-- What is found on a directory that is served, and that it is served afterwards. -/
theorem Backend.Serves.run_find [Allocator] {σ : Type u} {B : Backend σ} {inv : σ → Prop}
    {dir : String} {entries : List Entry} (h : B.Serves inv dir entries) {s : σ} (hs : inv s)
    (hdir : dir ≠ "") (name : String) (kind : EntryKind) :
    ∃ s', (Directory.find dir name kind).run B s =
      (Directory.held (entries.filter (Directory.Matches name kind ·)), s') ∧ inv s' := by
  rw [← Directory.filter_isMatch, Directory.find_eq hdir, Program.run_bind]
  obtain ⟨s₁, hcount, hs₁⟩ := h.run_enumerate hs (Directory.countMatches name kind) 0
  rw [hcount, Directory.foldUntil_countMatches, Nat.zero_add]
  by_cases hroom : (entries.filter (Directory.isMatch name kind)).length ≠ 0 ∧
      Allocator.grantsEntries (entries.filter (Directory.isMatch name kind)).length = true
  · obtain ⟨s₂, hcollect, hs₂⟩ := h.run_enumerate hs₁
      (Directory.collectMatches name kind (entries.filter (Directory.isMatch name kind)).length) []
    refine ⟨s₂, ?_, hs₂⟩
    rw [if_neg (by simpa using hroom), Program.run_bind, hcollect,
      Directory.foldUntil_collectMatches (by simp), Directory.held, if_pos hroom.2]
    rfl
  · refine ⟨s₁, ?_, hs₁⟩
    rw [Directory.held_eq_nil (by simpa [or_iff_not_imp_left] using hroom),
      if_pos (by simpa [or_iff_not_imp_left] using hroom)]
    rfl

namespace Directory

variable {dir name : String} {kind : EntryKind}

/-- **What is found in two passes.**  On every volume, in every run over a directory with a name:
the first pass is never cut short, and with `c` the number of matches that it is shown

* if `c` is 0, or there is no room for `c` entries, nothing is found and the directory was opened
  once;
* otherwise the first `c` matches are found that the second pass is shown, or would be shown if it
  went on, or all of them if there are fewer. It goes on until it has `c`, and reads nothing behind
  the last of them. If it is to be shown what the first pass was shown, all matches are found.

On a backend such a run is made, and if the directory is served without failures and without
changes, exactly the entries that match are found, in their order, if there is room for them. -/
theorem find_passes [Allocator] (hdir : dir ≠ "") (name : String) (kind : EntryKind) :
    (∀ events found, (find dir name kind).Makes events (.ret found) →
      ∃ counted first second, events = first ++ second ∧ IsPass dir counted false first ∧
        let c := (counted.filter (Matches name kind ·)).length
        (c = 0 ∨ Allocator.grantsEntries c = false →
          second = [] ∧ found = [] ∧ openings events = 1) ∧
        (c ≠ 0 → Allocator.grantsEntries c = true →
          ∃ shown stopped, IsPass dir shown stopped second ∧
          (stopped = true ↔ found.length = c) ∧
          (stopped = true → ∃ before last, shown = before ++ [last] ∧ Matches name kind last) ∧
          ∀ more, (stopped = false → more = []) →
            let B := (shown ++ more).filter (Matches name kind ·)
            found = B.take (min c B.length) ∧
              (shown ++ more = counted → found = counted.filter (Matches name kind ·)))) ∧
    ∀ {σ : Type u} (B : Backend σ) (s : σ),
      (∃ events, (find dir name kind).Makes events (.ret ((find dir name kind).run B s).1)) ∧
      ∀ (inv : σ → Prop) (entries : List Entry), B.Serves inv dir entries → inv s →
        ((find dir name kind).run B s).1 = held (entries.filter (Matches name kind ·)) := by
  refine ⟨?_, ?_⟩
  · intro events found h
    rw [find_eq hdir] at h
    obtain ⟨first, second, ⟨count, error⟩, rfl, hfirst, hsecond⟩ := Program.Makes.of_bind h
    obtain ⟨counted, stopped, hpass, hwatches⟩ := makes_enumerate hfirst
    obtain ⟨rfl, hcount⟩ := watches_count hwatches
    rw [Nat.zero_add] at hcount
    subst hcount
    refine ⟨counted, first, second, rfl, hpass, ?_, ?_⟩
    · intro hnone
      obtain ⟨rfl, rfl⟩ : second = [] ∧ found = [] := by
        rw [if_pos (by simpa using hnone)] at hsecond
        exact Program.Makes.of_ret hsecond
      exact ⟨rfl, rfl, by rw [List.append_nil, hpass.openings]⟩
    · intro hsome hroom
      rw [if_neg (not_or.2 ⟨hsome, by simp [hroom]⟩)] at hsecond
      obtain ⟨second, last, ⟨found', error⟩, rfl, hcollect, hend⟩ :=
        Program.Makes.of_bind hsecond
      obtain ⟨rfl, rfl⟩ := Program.Makes.of_ret hend
      rw [List.append_nil]
      obtain ⟨shown, stopped, hpass', hcount, hlast, hfound⟩ := makes_collect hsome hcollect
      refine ⟨shown, stopped, hpass', hcount, hlast, ?_⟩
      intro more hmore
      refine ⟨hfound more hmore, ?_⟩
      intro hsame
      have hall := hfound more hmore
      rwa [hsame, Nat.min_self, List.take_length] at hall
  · intro σ B s
    refine ⟨Program.exists_makes_run B _ s, ?_⟩
    intro inv entries hserves hs
    obtain ⟨s', hrun, -⟩ := hserves.run_find hs hdir name kind
    rw [hrun]

/-- One file is counted before the first pass fails; in the second pass another has come in its
place, and nothing is read behind it. On a volume that does not change, the files that match are
found. -/
theorem find_passes_changed :
    let a := Entry.ofFile "a" 1
    let b := Entry.ofFile "ba" 2
    let events : List Event := [⟨.opendir "/lfs", .ok ⟨0⟩⟩, ⟨.readdir ⟨0⟩, .ok a⟩,
      ⟨.readdir ⟨0⟩, .error .noSpace⟩, ⟨.closedir ⟨0⟩, .ok ()⟩, ⟨.opendir "/lfs", .ok ⟨1⟩⟩,
      ⟨.readdir ⟨1⟩, .ok b⟩, ⟨.closedir ⟨1⟩, .error .noSpace⟩]
    let v := ((MemoryVolume.newMounted "/lfs").insertFile "/lfs/a" [1]).insertFile "/lfs/d/a" [2]
    let _ : Allocator := .upTo 1024 16
    (find "/lfs" "a" .file).Makes events (.ret [b]) ∧
      (∃ counted shown stopped first second, events = first ++ second ∧
        IsPass "/lfs" counted false first ∧ IsPass "/lfs" shown stopped second) ∧
      ((find "/lfs" "a" .file).run MemoryVolume.backend v).1 = [a] := by
  intro a b events v machine
  have ha : isMatch "a" .file a = true := by decide
  have hb : isMatch "a" .file b = true := by decide
  have hcount : countMatches "a" .file 0 a = .yield 1 := by rw [countMatches, if_pos ha]
  have hcollect : collectMatches "a" .file 1 [] b = .done [b] := by
    rw [collectMatches, if_pos hb]
    rfl
  have hmakes : (find "/lfs" "a" .file).Makes events (.ret [b]) := by
    rw [find_eq (by decide)]
    refine .step (.call _ _ _) (.step (.passed _ _ _ _ _ a rfl hcount) ?_)
    refine .step (.failed _ _ _ _ _) (.step (.call _ _ _) (.step (.call _ _ _) ?_))
    exact .step (.stopped _ _ _ _ _ b rfl hcollect) (.step (.call _ _ _) (.start _))
  have hdir : "/lfs" ≠ "" := by decide
  have hpasses := find_passes hdir "a" .file
  obtain ⟨counted, first, second, hevents, hfirst, hnone, hsome⟩ := hpasses.1 events _ hmakes
  obtain ⟨shown, stopped, hsecond, hstopped, -, -⟩ :=
    hsome (fun hzero => absurd (hnone (.inl hzero)).2.1 (List.cons_ne_nil _ _))
      (Bool.eq_true_of_not_eq_false fun hrefused =>
        absurd (hnone (.inr hrefused)).2.1 (List.cons_ne_nil _ _))
  have hfiles : v.pathMap "/lfs" = some .directory := by decide
  have hfound := (hpasses.2 MemoryVolume.backend v).2 _ _ (MemoryVolume.serves_children v hfiles)
    ⟨⟨rfl, rfl⟩, rfl⟩
  refine ⟨hmakes, ⟨counted, shown, stopped, first, second, hevents, hfirst, hsecond⟩, ?_⟩
  rw [hfound]
  decide

end Directory
end FlashVolume

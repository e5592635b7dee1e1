import FlashVolume.Directory
import FlashVolume.Storage.Backend
/-!
# Directories that are read to their end

`Delivers` says what the reads of an open directory answer: some entries, one after the other, and
then the end mark, while an invariant of the volume holds. A visitor is shown these entries until it
stops, so an enumeration of the directory is a fold over them (`scan_delivers`).
-/

universe u

namespace FlashVolume

/-- What a visitor has after it has been shown some entries, or those up to where it stopped. -/
def foldUntil {γ : Type} (visit : γ → Entry → ForInStep γ) : γ → List Entry → γ
  | acc, [] => acc
  | acc, entry :: rest =>
    match visit acc entry with
    | .done acc => acc
    | .yield acc => foldUntil visit acc rest

/-- A visitor that never stops is shown everything. -/
theorem foldUntil_yield {γ : Type} (visit : γ → Entry → γ) (acc : γ) (entries : List Entry) :
    foldUntil (fun acc entry => .yield (visit acc entry)) acc entries =
      entries.foldl visit acc := by
  induction entries generalizing acc with
  | nil => rfl
  | cons entry entries ih => exact ih (visit acc entry)

/-- Collecting entries one by one collects all of them. -/
theorem foldl_concat (entries start : List Entry) :
    entries.foldl (fun entries entry => entries ++ [entry]) start = start ++ entries := by
  induction entries generalizing start with
  | nil => rw [List.foldl_nil, List.append_nil]
  | cons entry entries ih => rw [List.foldl_cons, ih, List.append_assoc, List.singleton_append]

namespace Backend

variable {σ : Type u} {γ : Type}

/-- The open directory delivers the entries and then the end mark, and the invariant holds after
each read. -/
def Delivers (B : Backend σ) (inv : σ → Prop) (dir : DirHandle) : List Entry → σ → Prop
  | [], s => ∃ s', B.answer (.readdir dir) s = (.ok .endMark, s') ∧ inv s'
  | entry :: rest, s => entry.isEnd = false ∧
      ∃ s', B.answer (.readdir dir) s = (.ok entry, s') ∧ inv s' ∧ B.Delivers inv dir rest s'

/-- What a stronger invariant leads to, a weaker one allows. -/
theorem Delivers.mono {B : Backend σ} {inv inv' : σ → Prop} (himp : ∀ s, inv s → inv' s)
    {dir : DirHandle} {entries : List Entry} {s : σ} (h : B.Delivers inv dir entries s) :
    B.Delivers inv' dir entries s := by
  induction entries generalizing s with
  | nil =>
    obtain ⟨s', hread, hinv⟩ := h
    exact ⟨s', hread, himp s' hinv⟩
  | cons entry rest ih =>
    obtain ⟨hend, s', hread, hinv, hrest⟩ := h
    exact ⟨hend, s', hread, himp s' hinv, ih hrest⟩

/-- As long as the invariant holds, the directory can be opened and delivers the same entries every
time. -/
structure Serves (B : Backend σ) (inv : σ → Prop) (path : String) (entries : List Entry) :
    Prop where
  opendir : ∀ s, inv s → ∃ dir s', B.answer (.opendir path) s = (.ok dir, s') ∧
    B.Delivers inv dir entries s'
  closedir : ∀ dir s, inv s → inv (B.answer (.closedir dir) s).2

/-- One read of a scan. -/
theorem scan_eq (B : Backend σ) (dir : DirHandle) (visit : γ → Entry → ForInStep γ) (acc : γ)
    (s : σ) : B.scan dir visit acc s =
      match B.answer (.readdir dir) s with
      | (.error e, s') => ((acc, some e), s')
      | (.ok entry, s') =>
        if entry.isEnd then ((acc, none), s')
        else
          match visit acc entry with
          | .done acc => ((acc, none), s')
          | .yield acc => B.scan dir visit acc s' := by
  rw [scan]
  split
  · next h => rw [h]
  · next entry s' h =>
    rw [h]
    by_cases hend : entry.isEnd = true
    · rw [dif_pos hend]
      exact (if_pos hend).symm
    · rw [dif_neg hend]
      refine Eq.trans ?_ (if_neg hend).symm
      cases visit acc entry <;> rfl

/-- **A scan is a fold over what is delivered.** -/
theorem scan_delivers {B : Backend σ} {inv : σ → Prop} {dir : DirHandle} {entries : List Entry}
    {s : σ} (h : B.Delivers inv dir entries s) (visit : γ → Entry → ForInStep γ) (acc : γ) :
    ∃ s', B.scan dir visit acc s = ((foldUntil visit acc entries, none), s') ∧ inv s' := by
  induction entries generalizing acc s with
  | nil =>
    obtain ⟨s', hread, hinv⟩ := h
    refine ⟨s', ?_, hinv⟩
    rw [scan_eq, hread]
    rfl
  | cons entry rest ih =>
    obtain ⟨hend, s', hread, hinv, hrest⟩ := h
    cases hvisit : visit acc entry with
    | done acc' =>
      refine ⟨s', ?_, hinv⟩
      simp only [scan_eq, hread, hend, Bool.false_eq_true, if_false, hvisit, foldUntil]
    | yield acc' =>
      obtain ⟨s'', hscan, hinv'⟩ := ih hrest acc'
      refine ⟨s'', ?_, hinv'⟩
      rw [scan_eq, hread]
      simp only [hend, Bool.false_eq_true, if_false, hvisit, foldUntil, hscan]

/-- An enumeration is a fold over what the directory delivers, if it can be opened. -/
theorem run_enumerate {B : Backend σ} {inv : σ → Prop} {path : String} {dir : DirHandle}
    {entries : List Entry} {s s₁ : σ} (hopen : B.answer (.opendir path) s = (.ok dir, s₁))
    (h : B.Delivers inv dir entries s₁)
    (hclose : ∀ s, inv s → inv (B.answer (.closedir dir) s).2)
    (visit : γ → Entry → ForInStep γ) (start : γ) :
    ∃ s', (Directory.enumerate path visit start).run B s =
      ((foldUntil visit start entries, none), s') ∧ inv s' := by
  obtain ⟨s₂, hscan, hinv⟩ := scan_delivers h visit start
  refine ⟨(B.answer (.closedir dir) s₂).2, ?_, hclose s₂ hinv⟩
  simp only [Directory.enumerate, Program.run, hopen, hscan]

/-- An enumeration is a fold over what is served. -/
theorem Serves.run_enumerate {B : Backend σ} {inv : σ → Prop} {path : String} {entries : List Entry}
    (h : B.Serves inv path entries) {s : σ} (hs : inv s) (visit : γ → Entry → ForInStep γ)
    (start : γ) : ∃ s', (Directory.enumerate path visit start).run B s =
      ((foldUntil visit start entries, none), s') ∧ inv s' := by
  obtain ⟨dir, s₁, hopen, hdelivers⟩ := h.opendir s hs
  exact Backend.run_enumerate hopen hdelivers (fun s hs => h.closedir dir s hs) visit start

end Backend
end FlashVolume

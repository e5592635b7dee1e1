import FlashVolume.Proofs.Storage.Presentation
import FlashVolume.Proofs.Storage.Running
/-!
# Operations on two volumes

An operation runs on two volumes that are presented at one site. `Agrees` says what is shown of the
two runs together: both succeed, or both fail. From states with `pre`, two successes are related by
`post`, their answers and the states after them; after two failures the volumes show the same map.
Failures need not have the same error.

Programs in sequence compose (`Agrees.bind`), so an operation is treated call by call. Each call has
its rule, which is a case of the map: the law of a presentation says that the call succeeds, or that
it fails, and it is the same law on both volumes.
-/

universe u v

namespace FlashVolume

/-- Two answers and the states after them: both are successes, or both are failures. -/
inductive Meets {ε ε' α β : Type} {σ : Type u} {τ : Type v} (post : α → β → σ → τ → Prop)
    (fails : σ → τ → Prop) : Except ε α × σ → Except ε' β × τ → Prop where
  | ok {a : α} {b : β} {s : σ} {t : τ} (h : post a b s t) : Meets post fails (.ok a, s) (.ok b, t)
  | error {e : ε} {e' : ε'} {s : σ} {t : τ} (h : fails s t) :
      Meets post fails (.error e, s) (.error e', t)

namespace Operation

variable {α β : Type}

/-- An answer that needs no call is handed on. -/
theorem ofExcept_ok_bind (a : α) (f : α → Operation β) :
    Operation.ofExcept (.ok a) >>= f = f a :=
  rfl

/-- An error known in advance ends what follows. -/
theorem ofExcept_error_bind (e : Error) (f : α → Operation β) :
    Operation.ofExcept (.error e) >>= f = throw e :=
  rfl

end Operation

namespace Presentation

open Operation

variable {site : Site} {σ : Type u} {τ : Type v} {A : Backend σ} {B : Backend τ}
  {α β α' β' : Type}

section Definitions

variable (P : Presentation site A) (Q : Presentation site B)

/-- The volumes show the same map. -/
def Same (s : σ) (t : τ) : Prop :=
  ∃ m, P.Shows s m ∧ Q.Shows t m

/-- The answers are equal, and the volumes show the same map. -/
def Equal (a b : α) (s : σ) (t : τ) : Prop :=
  a = b ∧ P.Same Q s t

/-- On both volumes a handle is open, as `f` says, and the files have the same contents. -/
def Both (f : OpenFile) (file file' : FileHandle) (s : σ) (t : τ) : Prop :=
  ∃ m data, P.Working s m file f data ∧ Q.Working t m file' f data

/-- Both runs succeed, or both fail. -/
def Agrees (pre : σ → τ → Prop) (p : Operation α) (q : Operation β)
    (post : α → β → σ → τ → Prop) : Prop :=
  ∀ s t, pre s t → Meets post (P.Same Q) (runOn A p s) (runOn B q t)

end Definitions

variable {P : Presentation site A} {Q : Presentation site B} {pre : σ → τ → Prop}
  {p : Operation α} {q : Operation β} {post : α → β → σ → τ → Prop}
  {post' : α' → β' → σ → τ → Prop}

/-- Two sides with the same file open show the same tree. -/
theorem Both.same {f : OpenFile} {file file' : FileHandle} {s : σ} {t : τ}
    (h : P.Both Q f file file' s t) : P.Same Q s t := by
  obtain ⟨m, data, hs, ht⟩ := h
  exact ⟨m, P.shows_of_working hs, Q.shows_of_working ht⟩

/-! ### Composition -/

/-- **Operations in sequence.** -/
theorem Agrees.bind {f : α → Operation α'} {g : β → Operation β'} (hp : P.Agrees Q pre p q post)
    (hf : ∀ a b, P.Agrees Q (post a b) (f a) (g b) post') :
    P.Agrees Q pre (p >>= f) (q >>= g) post' := by
  intro s t hst
  have hmeets := hp s t hst
  rw [runOn_bind, runOn_bind]
  generalize runOn A p s = x at hmeets
  generalize runOn B q t = y at hmeets
  cases hmeets with
  | ok h => exact hf _ _ _ _ h
  | error h => exact .error h

/-- What follows an answer that is the same on both volumes. -/
theorem Agrees.andThen {p q : Operation α} {f : α → Operation α'} {g : α → Operation β'}
    (hp : P.Agrees Q pre p q (P.Equal Q)) (hf : ∀ a, P.Agrees Q (P.Same Q) (f a) (g a) post') :
    P.Agrees Q pre (p >>= f) (q >>= g) post' := by
  refine hp.bind fun a b => ?_
  rintro s t ⟨rfl, hst⟩
  exact hf a s t hst

/-- Results may be mapped on both sides. -/
theorem Agrees.map {f : α → α'} {g : β → β'} (hp : P.Agrees Q pre p q post)
    (h : ∀ a b s t, post a b s t → post' (f a) (g b) s t) :
    P.Agrees Q pre (f <$> p) (g <$> q) post' := by
  intro s t hst
  have hmeets := hp s t hst
  rw [runOn_map, runOn_map]
  generalize runOn A p s = x at hmeets
  generalize runOn B q t = y at hmeets
  cases hmeets with
  | ok hpost => exact .ok (h _ _ _ _ hpost)
  | error hfails => exact .error hfails

/-- Both sides take the same way. -/
theorem Agrees.ite {c : Prop} [Decidable c] {p' : Operation α} {q' : Operation β}
    (hp : c → P.Agrees Q pre p q post) (hp' : ¬c → P.Agrees Q pre p' q' post) :
    P.Agrees Q pre (if c then p else p') (if c then q else q') post := by
  by_cases hc : c
  · rw [if_pos hc, if_pos hc]
    exact hp hc
  · rw [if_neg hc, if_neg hc]
    exact hp' hc

/-- Nothing is done on either side. -/
theorem agrees_pure {a : α} {b : β} (h : ∀ s t, pre s t → post a b s t) :
    P.Agrees Q pre (pure a) (pure b) post :=
  fun s t hst => .ok (h s t hst)

/-- Both sides fail, if only with errors of their own. -/
theorem agrees_throw {e e' : Error} (h : ∀ s t, pre s t → P.Same Q s t) :
    P.Agrees Q pre (throw e) (throw e') post :=
  fun s t hst => .error (h s t hst)

/-- Nothing follows a failure. -/
theorem agrees_throw_bind {e e' : Error} {f : α → Operation α'} {g : β → Operation β'}
    (h : ∀ s t, pre s t → P.Same Q s t) :
    P.Agrees Q pre (throw e >>= f) (throw e' >>= g) post' :=
  fun s t hst => .error (h s t hst)

/-- A call agrees if its answers do. -/
theorem agrees_requestOr {c : Call α} {c' : Call β} (fault : StorageError → Error)
    (h : ∀ s t, pre s t → Meets post (P.Same Q) (A.answer c s) (B.answer c' t)) :
    P.Agrees Q pre (requestOr fault c) (requestOr fault c') post := by
  intro s t hst
  have hmeets := h s t hst
  rw [runOn_requestOr, runOn_requestOr]
  generalize A.answer c s = x at hmeets
  generalize B.answer c' t = y at hmeets
  cases hmeets with
  | ok hpost => exact .ok hpost
  | error hfails => exact .error hfails

/-- So does a call that reports the error of the volume. -/
theorem agrees_request {c : Call α} {c' : Call β}
    (h : ∀ s t, pre s t → Meets post (P.Same Q) (A.answer c s) (B.answer c' t)) :
    P.Agrees Q pre (request c) (request c') post :=
  agrees_requestOr Error.ofStorage h

/-- How an operation went, on both volumes. -/
inductive Went {ε : Type} (post : α → β → σ → τ → Prop) (fails : σ → τ → Prop) :
    Except ε α → Except ε β → σ → τ → Prop where
  | ok {a : α} {b : β} {s : σ} {t : τ} (h : post a b s t) : Went post fails (.ok a) (.ok b) s t
  | error {e e' : ε} {s : σ} {t : τ} (h : fails s t) : Went post fails (.error e) (.error e') s t

/-- So does a call whose error is looked at. -/
theorem agrees_attempt {c : Call α} {c' : Call β}
    (h : ∀ s t, pre s t → Meets post (P.Same Q) (A.answer c s) (B.answer c' t)) :
    P.Agrees Q pre (attempt c) (attempt c') (Went post (P.Same Q)) := by
  intro s t hst
  have hmeets := h s t hst
  rw [runOn_attempt, runOn_attempt]
  generalize A.answer c s = x at hmeets
  generalize B.answer c' t = y at hmeets
  cases hmeets with
  | ok hpost => exact .ok (.ok hpost)
  | error hfails => exact .ok (.error hfails)

/-- Both sides look at what came of the work. -/
theorem Agrees.observe (hp : P.Agrees Q pre p q post) :
    P.Agrees Q pre (observe p) (observe q) (Went post (P.Same Q)) := by
  intro s t hst
  have hmeets := hp s t hst
  rw [runOn_observe, runOn_observe]
  generalize runOn A p s = x at hmeets
  generalize runOn B q t = y at hmeets
  cases hmeets with
  | ok hpost => exact .ok (.ok hpost)
  | error hfails => exact .ok (.error hfails)

/-- Programs agree if their runs do. -/
theorem agrees_ofProgram {p : Program α} {q : Program β}
    (h : ∀ s t, pre s t → post (p.run A s).1 (q.run B t).1 (p.run A s).2 (q.run B t).2) :
    P.Agrees Q pre (ofProgram p) (ofProgram q) post := by
  intro s t hst
  rw [runOn_ofProgram, runOn_ofProgram]
  exact .ok (h s t hst)

/-! ### Calls -/

section Calls

variable (P) (Q) {names : List String}

/-- Calls that succeed on both volumes. -/
theorem meets_of_grants {c : Call α} {a : α} {s : σ} {t : τ} {m : PathMap}
    (hs : A.Grants P.Shows c a s m) (ht : B.Grants Q.Shows c a t m) :
    Meets (P.Equal Q) (P.Same Q) (A.answer c s) (B.answer c t) := by
  obtain ⟨s', hs, hs'⟩ := hs
  obtain ⟨t', ht, ht'⟩ := ht
  rw [hs, ht]
  exact .ok ⟨rfl, m, hs', ht'⟩

/-- Calls that fail on both volumes. -/
theorem meets_of_refuses {c : Call α} {s : σ} {t : τ} {m : PathMap}
    (hs : A.Refuses P.Shows c s m) (ht : B.Refuses Q.Shows c t m) (post : α → α → σ → τ → Prop) :
    Meets post (P.Same Q) (A.answer c s) (B.answer c t) := by
  obtain ⟨e, s', hs, hs'⟩ := hs
  obtain ⟨e', t', ht, ht'⟩ := ht
  rw [hs, ht]
  exact .error ⟨m, hs', ht'⟩

/-- Both volumes show the same node, or both fail. -/
theorem meets_stat (hnames : site.Admits names) {s : σ} {t : τ} (hst : P.Same Q s t) :
    Meets (P.Equal Q) (P.Same Q) (A.answer (.stat (site.path names)) s)
      (B.answer (.stat (site.path names)) t) := by
  obtain ⟨m, hs, ht⟩ := hst
  cases hnode : m (site.path names) with
  | none =>
    exact meets_of_refuses P Q (P.stat_none hs hnames hnode) (Q.stat_none ht hnames hnode) _
  | some node =>
    exact meets_of_grants P Q (P.stat_some hs hnames hnode) (Q.stat_some ht hnames hnode)

/-- Both volumes make the directory, or both fail. -/
theorem meets_mkdir (hnames : site.Admits names) {s : σ} {t : τ} (hst : P.Same Q s t) :
    Meets (P.Equal Q) (P.Same Q) (A.answer (.mkdir (site.path names)) s)
      (B.answer (.mkdir (site.path names)) t) := by
  obtain ⟨m, hs, ht⟩ := hst
  by_cases hfree : m (site.path names) = none ∧ m (Path.parent (site.path names)) = some .directory
  · obtain ⟨hfree, hparent⟩ := hfree
    exact meets_of_grants P Q (P.mkdir_free hs hnames hfree hparent)
      (Q.mkdir_free ht hnames hfree hparent)
  · exact meets_of_refuses P Q (P.mkdir_taken hs hnames hfree) (Q.mkdir_taken ht hnames hfree) _

/-- Both volumes remove the node, or both fail. -/
theorem meets_unlink (hnames : site.Admits names) {s : σ} {t : τ} (hst : P.Same Q s t) :
    Meets (P.Equal Q) (P.Same Q) (A.answer (.unlink (site.path names)) s)
      (B.answer (.unlink (site.path names)) t) := by
  obtain ⟨m, hs, ht⟩ := hst
  cases hnode : m (site.path names) with
  | none =>
    exact meets_of_refuses P Q (P.unlink_missing hs hnames hnode)
      (Q.unlink_missing ht hnames hnode) _
  | some node =>
    by_cases hoccupied : node = .directory ∧ m.Occupied (site.path names)
    · obtain ⟨rfl, hoccupied⟩ := hoccupied
      exact meets_of_refuses P Q (P.unlink_occupied hs hnames hnode hoccupied)
        (Q.unlink_occupied ht hnames hnode hoccupied) _
    · have hempty : node = .directory → ¬m.Occupied (site.path names) :=
        fun hdir hbelow => hoccupied ⟨hdir, hbelow⟩
      exact meets_of_grants P Q (P.unlink_free hs hnames hnode hempty)
        (Q.unlink_free ht hnames hnode hempty)

/-- Both volumes close a file. -/
theorem meets_close (file file' : FileHandle) {s : σ} {t : τ} (hst : P.Same Q s t) :
    Meets (P.Equal Q) (P.Same Q) (A.answer (.close file) s) (B.answer (.close file') t) := by
  obtain ⟨m, hs, ht⟩ := hst
  obtain ⟨s', hs, hs'⟩ := P.close file hs
  obtain ⟨t', ht, ht'⟩ := Q.close file' ht
  rw [hs, ht]
  exact .ok ⟨rfl, m, hs', ht'⟩

/-- A file is opened to read on both volumes, or on neither. -/
theorem meets_open_readOnly (hnames : site.Admits names) {s : σ} {t : τ} (hst : P.Same Q s t) :
    Meets (P.Both Q ⟨site.path names, 0, .readOnly⟩) (P.Same Q)
      (A.answer (.open (site.path names) .readOnly) s)
      (B.answer (.open (site.path names) .readOnly) t) := by
  obtain ⟨m, hs, ht⟩ := hst
  by_cases hfile : ∃ data, m (site.path names) = some (.file data)
  · obtain ⟨data, hfile⟩ := hfile
    obtain ⟨file, s', hs, hs'⟩ := P.open_file hs hnames hfile
    obtain ⟨file', t', ht, ht'⟩ := Q.open_file ht hnames hfile
    rw [hs, ht]
    exact .ok ⟨m, data, hs', ht'⟩
  · rw [not_exists] at hfile
    exact meets_of_refuses P Q (P.open_other hs hnames hfile) (Q.open_other ht hnames hfile) _

/-- A file is opened to write on both volumes, or on neither. Where it is opened does not depend on
the volume, and is the start of the file or a place that does not count. -/
theorem meets_open_writing (hnames : site.Admits names) {mode : OpenMode}
    (hmode : mode = .replacing ∨ mode = .appending) {s : σ} {t : τ} (hst : P.Same Q s t) :
    Meets (fun file file' s t => ∃ position, (position = 0 ∨ mode.append = true) ∧
        P.Both Q ⟨site.path names, position, mode⟩ file file' s t) (P.Same Q)
      (A.answer (.open (site.path names) mode) s) (B.answer (.open (site.path names) mode) t) := by
  obtain ⟨m, hs, ht⟩ := hst
  cases hbefore : m.beforeWrite (site.path names) with
  | ok data =>
    obtain ⟨file, s', hs, hs'⟩ := P.open_creating hs hnames hmode hbefore
    obtain ⟨file', t', ht, ht'⟩ := Q.open_creating ht hnames hmode hbefore
    rw [hs, ht]
    refine .ok ⟨_, ?_, _, data, hs', ht'⟩
    cases happend : mode.append with
    | true => exact .inr rfl
    | false => exact .inl rfl
  | error e =>
    exact meets_of_refuses P Q (P.open_refused hs hnames hmode hbefore)
      (Q.open_refused ht hnames hmode hbefore) _

variable {f : OpenFile} {file file' : FileHandle}

/-- Both volumes read the same bytes, and as many. -/
theorem meets_read (hmode : f.mode = .readOnly) {length : Nat}
    (hend : f.position + length ≤ HostSystem.maxOffset) {s : σ} {t : τ}
    (hst : P.Both Q f file file' s t) :
    Meets (fun bytes bytes' s t => bytes = bytes' ∧
        P.Both Q { f with position := f.position + bytes.length } file file' s t) (P.Same Q)
      (A.answer (.read file length) s) (B.answer (.read file' length) t) := by
  obtain ⟨m, data, hs, ht⟩ := hst
  obtain ⟨s', hs, hs'⟩ := P.read hs hmode hend
  obtain ⟨t', ht, ht'⟩ := Q.read ht hmode hend
  rw [hs, ht]
  have hlength : ((data.drop f.position).take length).length =
      min length (data.length - f.position) := by
    rw [List.length_take, List.length_drop]
  refine .ok ⟨rfl, m, data, ?_, ?_⟩
  · rw [hlength]
    exact hs'
  · rw [hlength]
    exact ht'

/-- Both volumes move the position. -/
theorem meets_seek (hmode : f.mode = .readOnly) {offset : Nat}
    (hoffset : offset ≤ HostSystem.maxOffset) {s : σ} {t : τ} (hst : P.Both Q f file file' s t) :
    Meets (fun _ _ => P.Both Q { f with position := offset } file file') (P.Same Q)
      (A.answer (.seek file offset) s) (B.answer (.seek file' offset) t) := by
  obtain ⟨m, data, hs, ht⟩ := hst
  obtain ⟨s', hs, hs'⟩ := P.seek hs hmode hoffset
  obtain ⟨t', ht, ht'⟩ := Q.seek ht hmode hoffset
  rw [hs, ht]
  exact .ok ⟨m, data, hs', ht'⟩

/-- Both volumes cut or fill the file. -/
theorem meets_truncate (hmode : f.mode.write = true) {length : Nat}
    (hlength : length ≤ HostSystem.maxOffset) {s : σ} {t : τ} (hst : P.Both Q f file file' s t) :
    Meets (fun _ _ => P.Both Q f file file') (P.Same Q)
      (A.answer (.truncate file length) s) (B.answer (.truncate file' length) t) := by
  obtain ⟨m, data, hs, ht⟩ := hst
  obtain ⟨s', hs, hs'⟩ := P.truncate hs hmode hlength
  obtain ⟨t', ht, ht'⟩ := Q.truncate ht hmode hlength
  rw [hs, ht]
  exact .ok ⟨_, _, hs', ht'⟩

/-- Both volumes take all bytes. -/
theorem meets_write (hmode : f.mode.write = true)
    (hstart : f.position = 0 ∨ f.mode.append = true) {bytes : Bytes}
    (hlength : bytes.length ≤ HostSystem.maxOffset) {s : σ} {t : τ}
    (hst : P.Both Q f file file' s t) :
    Meets (P.Equal Q) (P.Same Q) (A.answer (.write file bytes) s)
      (B.answer (.write file' bytes) t) := by
  obtain ⟨m, data, hs, ht⟩ := hst
  obtain ⟨s', hs, hs'⟩ := P.write hs hmode hstart hlength
  obtain ⟨t', ht, ht'⟩ := Q.write ht hmode hstart hlength
  rw [hs, ht]
  exact .ok ⟨rfl, _, hs', ht'⟩

end Calls

/-! ### Files -/

/-- A path that is empty is refused on both volumes. -/
theorem agrees_requirePath (path : String) :
    P.Agrees Q (P.Same Q) (File.requirePath path) (File.requirePath path) (P.Equal Q) :=
  .ite (fun _ => agrees_throw fun _ _ hst => hst) fun _ => agrees_pure fun _ _ hst => ⟨rfl, hst⟩

/-- **Work on a file that is open on both volumes.**  It is closed on both, and the close succeeds
on both. -/
theorem agrees_withFile {path : String} {mode : OpenMode}
    {mid : FileHandle → FileHandle → σ → τ → Prop} {work : FileHandle → Operation α}
    (hopen : ∀ s t, P.Same Q s t →
      Meets mid (P.Same Q) (A.answer (.open path mode) s) (B.answer (.open path mode) t))
    (hwork : ∀ file file', P.Agrees Q (mid file file') (work file) (work file') (P.Equal Q)) :
    P.Agrees Q (P.Same Q) (File.withFile path mode work) (File.withFile path mode work)
      (P.Equal Q) := by
  refine (agrees_request hopen).bind fun file file' => ?_
  refine (hwork file file').observe.bind fun result result' => ?_
  have hclose : P.Agrees Q (P.Same Q) (attempt (.close file)) (attempt (.close file'))
      (Went (P.Equal Q) (P.Same Q)) :=
    agrees_attempt fun s t hst => meets_close P Q file file' hst
  -- The work leaves the volumes with the same map, whether it succeeded or not.
  intro s t hst
  cases hst with
  | ok h =>
    obtain ⟨rfl, hsame⟩ := h
    refine hclose.bind (fun closed closed' => ?_) s t hsame
    intro s t hclosed
    cases hclosed with
    | ok h => exact .ok ⟨rfl, h.2⟩
    | error h => exact .error h
  | error hsame =>
    refine hclose.bind (fun closed closed' => ?_) s t hsame
    intro s t hclosed
    cases hclosed with
    | ok h => exact .error h.2
    | error h => exact .error h

end Presentation
end FlashVolume

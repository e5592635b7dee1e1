import FlashVolume.Proofs.Memory.Calls
import FlashVolume.Proofs.Memory.Steps
import FlashVolume.Proofs.Storage.Runs
/-!
# Handles for reading

Section 6 of the specification: what a mode of `open` allows.

A call gives out a handle, moves one, closes one or leaves the open files alone (`FilesChange`). So
a handle keeps the path and the mode that it was opened with, whatever happens to the volume, until
it is closed (`KeepsOpened`), and its number is not given out again. What can be done through
handles that were opened for reading is therefore a matter of the calls that take a handle:

| call | answer | entries |
| --- | --- | --- |
| `read`, `seek`, `close` | any | as before |
| `write` | refused | as before |
| `truncate` | **not refused** while the handle is open and its file there | the file is resized |

`read` and `write` look at the mode of the handle and `truncate` does not, so a handle for reading
can empty its file (`not_reading_keeps`). That is all it can do (`reading_resizes`).
-/

namespace FlashVolume

/-- The open file that the call works on, if it works on one. -/
def Call.file? {α : Type} : Call α → Option FileHandle
  | .read file _ => file
  | .write file _ => file
  | .seek file _ => file
  | .truncate file _ => file
  | .close file => file
  | _ => none

/-- The open file that the call closes. -/
def Call.closes? {α : Type} : Call α → Option FileHandle
  | .close file => file
  | _ => none

namespace MemoryVolume

variable {α : Type} {v v' : MemoryVolume} {file : FileHandle} {path : String}

/-! ### The open files -/

/-- What a call makes of the table of open files: it is as before, or has one handle more, or a
handle goes to another position or is closed. -/
inductive FilesChange (c : Call α) (t t' : Handles OpenFile) : Prop where
  | same (hcloses : c.closes? = none) (h : t' = t)
  | opened (hfile : c.file? = none) (f : OpenFile) (h : t' = t.add f)
  | moved {i : Nat} {f : OpenFile} (position : Nat) (hcloses : c.closes? = none)
      (hf : t.get? i = some f) (h : t' = t.set i { f with position })
  | closed (used : FileHandle) (hcloses : c.closes? = some used) (h : t' = t.close used.index)

/-- **What each call does to the open files.** -/
theorem filesChange_answer (c : Call α) (v : MemoryVolume) :
    FilesChange c v.files (backend.answer c v).2.files := by
  cases c with
  | «open» path mode =>
    simp only [backend, answer, MemoryVolume.open, whenMounted, openAt]
    repeat' split
    all_goals first | exact .same rfl rfl | exact .opened rfl _ rfl
  | read file length =>
    simp only [backend, answer, MemoryVolume.read]
    split
    · exact .same rfl rfl
    · next f hf =>
      repeat' split
      all_goals first | exact .same rfl rfl | exact .moved _ rfl hf rfl
  | write file data =>
    simp only [backend, answer, MemoryVolume.write]
    split
    · exact .same rfl rfl
    · next f hf =>
      split
      · exact .same rfl rfl
      · split
        · exact .same rfl rfl
        · exact .moved _ rfl hf rfl
  | seek file offset =>
    simp only [backend, answer, MemoryVolume.seek]
    split
    · exact .same rfl rfl
    · next f hf => exact .moved _ rfl hf rfl
  | close file => exact .closed file rfl rfl
  | _ =>
    simp only [backend, answer, mount, statvfs, MemoryVolume.truncate, MemoryVolume.stat, opendir,
      beforeOpendir, readdir, closedir, mkdir, unlink, whenMounted]
    repeat' split
    all_goals exact .same rfl rfl

/-! ### Path and mode of a handle -/

/-- Handles that were given out keep their path and their mode for as long as they are open. -/
structure KeepsOpened (v v' : MemoryVolume) : Prop where
  next_le : v.files.next ≤ v'.files.next
  record : ∀ i f', i < v.files.next → v'.files.get? i = some f' →
    ∃ f, v.files.get? i = some f ∧ f'.path = f.path ∧ f'.mode = f.mode

namespace KeepsOpened

/-- With the same open files, all are kept. -/
theorem of_eq (h : v'.files = v.files) : v.KeepsOpened v' where
  next_le := Nat.le_of_eq (by rw [h])
  record := fun _ f' _ hf' => ⟨f', h ▸ hf', rfl, rfl⟩

/-- What is kept twice is kept. -/
theorem trans {v₁ v₂ v₃ : MemoryVolume} (h : v₁.KeepsOpened v₂) (h' : v₂.KeepsOpened v₃) :
    v₁.KeepsOpened v₃ where
  next_le := Nat.le_trans h.next_le h'.next_le
  record := by
    intro i f₃ hi hf₃
    obtain ⟨f₂, hf₂, hpath, hmode⟩ := h'.record i f₃ (Nat.lt_of_lt_of_le hi h.next_le) hf₃
    obtain ⟨f₁, hf₁, hpath', hmode'⟩ := h.record i f₂ hi hf₂
    exact ⟨f₁, hf₁, hpath.trans hpath', hmode.trans hmode'⟩

/-- A new handle has a new number. -/
theorem of_add {f : OpenFile} (h : v'.files = v.files.add f) : v.KeepsOpened v' where
  next_le := by simp [h]
  record := by
    intro i f' hi hf'
    rw [h, Handles.get?_add_of_lt hi] at hf'
    exact ⟨f', hf', rfl, rfl⟩

/-- Only the position of a handle changes. -/
theorem of_set {i : Nat} {f : OpenFile} (position : Nat) (hf : v.files.get? i = some f)
    (h : v'.files = v.files.set i { f with position }) : v.KeepsOpened v' where
  next_le := by simp [h]
  record := by
    intro j f' hj hf'
    rw [h] at hf'
    by_cases hij : i = j
    · subst hij
      rw [Handles.get?_set_self hf] at hf'
      cases hf'
      exact ⟨f, hf, rfl, rfl⟩
    · rw [Handles.get?_set_of_ne hij] at hf'
      exact ⟨f', hf', rfl, rfl⟩

/-- Closing a file gives no handle a new meaning. -/
theorem of_close {i : Nat} (h : v'.files = v.files.close i) : v.KeepsOpened v' where
  next_le := by simp [h]
  record := by
    intro j f' hj hf'
    rw [h] at hf'
    by_cases hij : i = j
    · rw [hij, Handles.get?_close_self] at hf'
      cases hf'
    · rw [Handles.get?_close_of_ne hij] at hf'
      exact ⟨f', hf', rfl, rfl⟩

end KeepsOpened

/-- **No call gives an open handle another path or mode.** -/
theorem keepsOpened_answer (c : Call α) (v : MemoryVolume) :
    v.KeepsOpened (backend.answer c v).2 := by
  cases filesChange_answer c v with
  | same hcloses h => exact .of_eq h
  | opened hfile f h => exact .of_add h
  | moved position hcloses hf h => exact .of_set position hf h
  | closed used hcloses h => exact .of_close h

/-- A program gives no handle a new meaning. -/
theorem keepsOpened_run (p : Program α) (v : MemoryVolume) :
    v.KeepsOpened (p.run backend v).2 :=
  (Program.only_true p).run_rel (fun _ => .of_eq rfl) (fun _ _ _ => .trans)
    (fun c v _ => keepsOpened_answer c v) v

/-- Nor does a step of the surroundings. -/
theorem keepsOpened_apply (step : Step) (v : MemoryVolume) : v.KeepsOpened (step.apply v) := by
  cases step with
  | call c => exact keepsOpened_answer c v
  | request machine config request => exact keepsOpened_run _ v
  | gate state mountPoint => exact keepsOpened_run _ v
  | faults faults => exact .of_eq rfl

/-- Nor do many. -/
theorem keepsOpened_after (steps : List Step) (v : MemoryVolume) :
    v.KeepsOpened (v.after steps) := by
  induction steps generalizing v with
  | nil => exact .of_eq rfl
  | cons step steps ih => exact (keepsOpened_apply step v).trans (ih (step.apply v))

/-! ### Handles for reading -/

/-- The handle was opened for reading at the path, and then some steps were made. -/
def OpenedForReading (v : MemoryVolume) (file : FileHandle) (path : String) : Prop :=
  ∃ (v₀ v₁ : MemoryVolume) (steps : List Step),
    backend.answer (.open path .readOnly) v₀ = (.ok file, v₁) ∧ v = v₁.after steps

/-- The handle was given out, and if it is open, then at the path and for reading. -/
structure Reads (v : MemoryVolume) (file : FileHandle) (path : String) : Prop where
  given : file.index < v.files.next
  record : ∀ f, v.files.get? file.index = some f → f.path = path ∧ f.mode = .readOnly

/-- A handle that reads goes on reading the same path. -/
theorem Reads.of_keepsOpened (h : v.Reads file path) (hkeeps : v.KeepsOpened v') :
    v'.Reads file path where
  given := Nat.lt_of_lt_of_le h.given hkeeps.next_le
  record := by
    intro f' hf'
    obtain ⟨f, hf, hpath, hmode⟩ := hkeeps.record _ f' h.given hf'
    obtain ⟨hpath', hmode'⟩ := h.record f hf
    exact ⟨hpath.trans hpath', hmode.trans hmode'⟩

/-- A file is opened with the next handle. -/
theorem open_ok {mode : OpenMode} (h : backend.answer (.open path mode) v = (.ok file, v')) :
    ∃ position, file = ⟨v.files.next⟩ ∧ v'.files = v.files.add ⟨path, position, mode⟩ := by
  simp only [backend, answer, MemoryVolume.open, whenMounted, openAt] at h
  repeat' split at h
  all_goals
    cases h
    try exact ⟨_, rfl, rfl⟩

/-- A handle opened for reading reads. -/
theorem OpenedForReading.reads (h : v.OpenedForReading file path) : v.Reads file path := by
  obtain ⟨v₀, v₁, steps, hopen, rfl⟩ := h
  obtain ⟨position, rfl, hfiles⟩ := open_ok hopen
  have hreads : v₁.Reads ⟨v₀.files.next⟩ path := by
    constructor
    · simp [hfiles]
    · intro f hf
      rw [hfiles, Handles.get?_add_next] at hf
      cases hf
      exact ⟨rfl, rfl⟩
  exact hreads.of_keepsOpened (keepsOpened_after steps v₁)

/-- The handle is open. -/
def IsOpen (v : MemoryVolume) (file : FileHandle) : Prop :=
  v.files.get? file.index ≠ none

/-- A handle is open behind a call if it was open before and this is not its `close`. -/
theorem isOpen_answer {c : Call α} {used : FileHandle} (hc : c.file? = some used)
    (file : FileHandle) :
    (backend.answer c v).2.IsOpen file ↔ v.IsOpen file ∧ c.closes? ≠ some file := by
  rw [IsOpen, IsOpen]
  cases filesChange_answer c v with
  | same hcloses h => simp [h, hcloses]
  | opened hfile f h =>
    rw [hfile] at hc
    cases hc
  | @moved i f position hcloses hf h =>
    have hset : (v.files.set i { f with position }).get? file.index ≠ none ↔
        v.files.get? file.index ≠ none := by
      by_cases hi : i = file.index
      · rw [← hi, Handles.get?_set_self hf, hf]
        simp
      · rw [Handles.get?_set_of_ne hi]
    rw [h, hset]
    simp [hcloses]
  | closed closing hcloses h =>
    rw [h, hcloses, ne_eq (some closing), Option.some.injEq]
    by_cases hsame : closing = file
    · simp [hsame]
    · have hindex : closing.index ≠ file.index := fun heq => hsame (congrArg FileHandle.mk heq)
      rw [Handles.get?_close_of_ne hindex]
      simp [hsame]

end MemoryVolume

/-! ### What the calls do -/

/-- The node with another length, if it is a file. -/
def Node.resize : Node → Nat → Node
  | file data, length => file (data.resize length)
  | directory, _ => directory

/-- A file that is truncated stays a file. -/
theorem Node.exists_foldl_resize (lengths : List Nat) (data : Bytes) :
    ∃ data', lengths.foldl Node.resize (.file data) = .file data' := by
  induction lengths generalizing data with
  | nil => exact ⟨data, rfl⟩
  | cons length lengths ih => exact ih (data.resize length)

/-- A directory has no length to change. -/
theorem Node.foldl_resize_directory (lengths : List Nat) :
    lengths.foldl Node.resize .directory = .directory := by
  induction lengths with
  | nil => rfl
  | cons length lengths ih => exact ih

/-- Giving files another length makes no file and unmakes none. -/
theorem Node.exists_file_iff (node : Option Node) (lengths : List Nat) :
    (∃ data, (node.map fun node => lengths.foldl Node.resize node) = some (.file data)) ↔
      ∃ data, node = some (.file data) := by
  cases node with
  | none => simp
  | some node =>
    cases node with
    | file data =>
      obtain ⟨data', hdata⟩ := Node.exists_foldl_resize lengths data
      simp [hdata]
    | directory => simp [Node.foldl_resize_directory]

namespace Event

/-- The length that the event gives the file at `path`: it is a truncation that succeeded, through
a handle that was opened there. -/
def cut? (pathOf : FileHandle → String) (path : String) : Event → Option Nat
  | ⟨.truncate file length, .ok _⟩ => if pathOf file = path then some length else none
  | _ => none

/-- The event is the `close` of the handle. -/
def Closes (file : FileHandle) (event : Event) : Prop :=
  event.call.closes? = some file

end Event

namespace MemoryVolume

variable {α : Type} {v v' : MemoryVolume} {file : FileHandle} {path : String}
  {pathOf : FileHandle → String}

/-- A handle for reading cannot be written to. -/
theorem Reads.write_refused (h : v.Reads file path) (data : Bytes) :
    ∃ e, backend.answer (.write file data) v = (.error e, v) := by
  simp only [backend, answer, MemoryVolume.write]
  split
  · exact ⟨_, rfl⟩
  · next f hf =>
    have hmode : (!f.mode.write) = true := by
      rw [(h.record f hf).2]
      rfl
    rw [if_pos hmode]
    exact ⟨_, rfl⟩

/-- **A truncation does not look at the mode:** it succeeds while the handle is open and its file is
there. -/
theorem Reads.truncate_ok_iff (h : v.Reads file path) (length : Nat) :
    (backend.answer (.truncate file length) v).1 = .ok () ↔
      v.IsOpen file ∧ ∃ data, v.pathMap path = some (.file data) := by
  simp only [backend, answer, MemoryVolume.truncate, IsOpen]
  split
  · next hclosed => simp [hclosed]
  · next f hf =>
    obtain rfl := (h.record f hf).1
    split
    · next hgone =>
      simp only [reduceCtorEq, hf, ne_eq, not_false_eq_true, true_and, false_iff, not_exists]
      intro data hdata
      rw [contents?_eq_some.2 hdata] at hgone
      cases hgone
    · next data hdata => simp [hf, pathMap, contents?_eq_some.1 hdata]

/-- **What a call through a handle for reading does to an entry.** -/
theorem pathMap_of_reading {c : Call α} (hc : c.file? = some file)
    (h : v.Reads file (pathOf file)) (path : String) :
    (backend.answer c v).2.pathMap path = (v.pathMap path).map fun node =>
      (Event.cut? pathOf path ⟨c, (backend.answer c v).1⟩).toList.foldl Node.resize node := by
  have hkept : (v.pathMap path).map (fun node => node) = v.pathMap path := Option.map_id'
  cases c with
  | read used length =>
    refine Eq.trans ?_ hkept.symm
    simp only [backend, answer, MemoryVolume.read]
    repeat' split
    all_goals rfl
  | write used data =>
    cases hc
    obtain ⟨e, hrefused⟩ := h.write_refused data
    rw [hrefused]
    exact hkept.symm
  | seek used offset =>
    refine Eq.trans ?_ hkept.symm
    simp only [backend, answer, MemoryVolume.seek]
    split <;> rfl
  | truncate used length =>
    cases hc
    simp only [backend, answer, MemoryVolume.truncate]
    split
    · exact hkept.symm
    · next f hf =>
      have hpath : f.path = pathOf file := (h.record f hf).1
      split
      · exact hkept.symm
      · next data hdata =>
        have hfile : v.pathMap f.path = some (.file data) := contents?_eq_some.1 hdata
        have hinsert : (pathMap { v with
            nodes := v.nodes.insert f.path (.file (data.resize length)) }) =
              v.pathMap.update f.path (some (.file (data.resize length))) := pathMap_insert rfl
        rw [hinsert, PathMap.update]
        by_cases hp : path = f.path
        · subst hp
          simp [Event.cut?, hpath.symm, hfile, Node.resize]
        · have hother : pathOf file ≠ path := fun heq => hp (heq.symm.trans hpath.symm)
          simp [hp, Event.cut?, hother]
  | close used => exact hkept.symm
  | _ => cases hc

/-! ### Runs -/

/-- The handles that the events go through were opened for reading, each at its path. -/
def ReadsThrough (v : MemoryVolume) (pathOf : FileHandle → String) (events : List Event) : Prop :=
  ∀ event ∈ events, ∃ file, event.call.file? = some file ∧ v.OpenedForReading file (pathOf file)

/-- The handles are open for reading, or closed, at each of the events. -/
def Uses (v : MemoryVolume) (pathOf : FileHandle → String) (events : List Event) : Prop :=
  ∀ event ∈ events, ∃ file, event.call.file? = some file ∧ v.Reads file (pathOf file)

/-- A call on a handle in use leaves the others in use. -/
theorem Uses.answer {c : Call α} {answer : Except StorageError α} {events : List Event}
    (h : v.Uses pathOf (⟨c, answer⟩ :: events)) :
    (∃ file, c.file? = some file ∧ v.Reads file (pathOf file)) ∧
      (backend.answer c v).2.Uses pathOf events := by
  obtain ⟨hfirst, hrest⟩ := List.forall_mem_cons.1 h
  refine ⟨hfirst, fun event hevent => ?_⟩
  obtain ⟨file, hfile, hreads⟩ := hrest event hevent
  exact ⟨file, hfile, hreads.of_keepsOpened (keepsOpened_answer c v)⟩

/-- A handle that reads does so through any calls. -/
theorem Reads.of_answers {events : List Event} (h : v.Reads file path)
    (hanswers : backend.Answers v events v') : v'.Reads file path := by
  induction hanswers with
  | idle v => exact h
  | call c rest ih => exact ih (h.of_keepsOpened (keepsOpened_answer c _))

section Runs

variable {events : List Event} (hanswers : backend.Answers v events v')

include hanswers in
/-- **Only truncations count for the entries.** -/
theorem pathMap_of_answers (huses : v.Uses pathOf events) (path : String) :
    v'.pathMap path = (v.pathMap path).map fun node =>
      (events.filterMap (Event.cut? pathOf path)).foldl Node.resize node := by
  induction hanswers with
  | idle v => exact Option.map_id'.symm
  | @call α c v v' events rest ih =>
    obtain ⟨⟨file, hfile, hreads⟩, hrest⟩ := huses.answer
    rw [ih hrest, pathMap_of_reading hfile hreads path, Option.map_map]
    congr 1
    funext node
    rw [Function.comp_apply, List.filterMap_cons]
    split <;> simp [*]

include hanswers in
/-- A handle stays open until it is closed. -/
theorem isOpen_of_answers (huses : v.Uses pathOf events) (file : FileHandle) :
    v'.IsOpen file ↔ v.IsOpen file ∧ ∀ event ∈ events, ¬event.Closes file := by
  induction hanswers with
  | idle v => simp
  | call c rest ih =>
    obtain ⟨⟨used, hused, -⟩, hrest⟩ := huses.answer
    rw [ih hrest, isOpen_answer hused, List.forall_mem_cons, and_assoc]
    rfl

include hanswers in
/-- Writing through handles that read is always refused. -/
theorem write_refused_of_answers (huses : v.Uses pathOf events) :
    ∀ event ∈ events, event.call.name = .write → event.answer.isOk = false := by
  induction hanswers with
  | idle v => simp
  | @call α c v v' events rest ih =>
    obtain ⟨⟨file, hfile, hreads⟩, hrest⟩ := huses.answer
    refine List.forall_mem_cons.2 ⟨fun hwrite => ?_, ih hrest⟩
    cases c with
    | write used data =>
      cases hfile
      obtain ⟨e, hrefused⟩ := hreads.write_refused data
      simp only [hrefused]
      rfl
    | _ => cases hwrite

end Runs

/-- What the events, from one volume to another, do through handles for reading. -/
structure ResizesOnly (v v' : MemoryVolume) (pathOf : FileHandle → String) (events : List Event) :
    Prop where
  /-- Nothing is written. -/
  refused : ∀ event ∈ events, event.call.name = .write → event.answer.isOk = false
  /-- A truncation succeeds while its handle is open, if its file is there. -/
  truncate : ∀ before after file length answer,
    events = before ++ ⟨.truncate file length, answer⟩ :: after →
      (answer = .ok () ↔ v.IsOpen file ∧ (∀ event ∈ before, ¬event.Closes file) ∧
        ∃ data, v.pathMap (pathOf file) = some (.file data))
  /-- A file has the lengths, one after the other, of the truncations that succeeded on it; it is
  cut or filled with zeros. -/
  resized : ∀ path, v'.pathMap path = (v.pathMap path).map fun node =>
    (events.filterMap (Event.cut? pathOf path)).foldl Node.resize node
  /-- Without a truncation, everything is afterwards what it was. -/
  kept : (∀ event ∈ events, event.call.name ≠ .truncate) → v'.pathMap = v.pathMap

/-- **Through handles for reading, files can be given another length, and nothing else can be
done.**  The handles may have been opened in any order, at one path or several, with any other steps
behind that. -/
theorem reading_resizes {events : List Event} (hanswers : backend.Answers v events v')
    (hreads : v.ReadsThrough pathOf events) : v.ResizesOnly v' pathOf events := by
  have huses : v.Uses pathOf events := by
    intro event hevent
    obtain ⟨file, hfile, hopened⟩ := hreads event hevent
    exact ⟨file, hfile, hopened.reads⟩
  have hresized := pathMap_of_answers hanswers huses
  refine ⟨write_refused_of_answers hanswers huses, ?_, hresized, ?_⟩
  · rintro before after file length answer rfl
    obtain ⟨w, hbefore, hafter⟩ := hanswers.of_append
    have hbeforeUses : v.Uses pathOf before :=
      fun event hevent => huses event (List.mem_append_left _ hevent)
    obtain ⟨used, hused, hread⟩ := huses _ (List.mem_append_right _ List.mem_cons_self)
    cases hused
    have hw : w.Reads file (pathOf file) := hread.of_answers hbefore
    cases hafter with
    | call c rest =>
      rw [hw.truncate_ok_iff, isOpen_of_answers hbefore hbeforeUses, and_assoc,
        pathMap_of_answers hbefore hbeforeUses, Node.exists_file_iff]
  · intro hcalls
    have hcuts : ∀ path, events.filterMap (Event.cut? pathOf path) = [] := by
      intro path
      rw [List.filterMap_eq_nil_iff]
      rintro ⟨c, answer⟩ hevent
      cases c with
      | truncate file length => exact absurd rfl (hcalls _ hevent)
      | _ => rfl
    funext path
    rw [hresized, hcuts]
    exact Option.map_id'

/-- One handle for reading: a write is refused, a truncation cuts the file, and after the `close`
another one is refused. -/
theorem reading_resizes_closed :
    let v₀ := (newMounted "/lfs").insertFile "/lfs/f" [97, 98, 99]
    let v := (backend.answer (.open "/lfs/f" .readOnly) v₀).2
    let file : FileHandle := ⟨0⟩
    let events : List Event := [⟨.write file [120], .error denied⟩, ⟨.truncate file 1, .ok ()⟩,
      ⟨.close file, .ok ()⟩, ⟨.truncate file 0, .error badHandle⟩]
    ∃ v', backend.Answers v events v' ∧ v.ReadsThrough (fun _ => "/lfs/f") events ∧
      v'.pathMap "/lfs/f" = some (.file [97]) := by
  intro v₀ v file events
  have hopened : v.OpenedForReading file "/lfs/f" := ⟨v₀, v, [], rfl, rfl⟩
  have hanswers : ∃ v', backend.Answers v events v' :=
    ⟨_, .call (.write file [120]) (.call (.truncate file 1) (.call (.close file)
      (.call (.truncate file 0) (.idle _))))⟩
  obtain ⟨v', hanswers⟩ := hanswers
  have hreads : v.ReadsThrough (fun _ => "/lfs/f") events := by
    intro event hevent
    simp only [events, List.mem_cons, List.not_mem_nil, or_false] at hevent
    obtain rfl | rfl | rfl | rfl := hevent <;> exact ⟨file, rfl, hopened⟩
  have hbefore : v.pathMap "/lfs/f" = some (.file [97, 98, 99]) := by decide
  refine ⟨v', hanswers, hreads, ?_⟩
  rw [(reading_resizes hanswers hreads).resized, hbefore]
  rfl

/-- **A handle for reading does not keep its file as it is:** it can be truncated. -/
theorem not_reading_keeps :
    ¬∀ (v v' : MemoryVolume) (pathOf : FileHandle → String) (events : List Event),
      v.mounted = true → backend.Answers v events v' → v.ReadsThrough pathOf events →
        v'.pathMap = v.pathMap ∧ ∀ event ∈ events,
          event.call.name = .write ∨ event.call.name = .truncate → event.answer.isOk = false := by
  intro h
  let v₀ := (newMounted "/lfs").insertFile "/lfs/f" [97, 98, 99]
  let v := (backend.answer (.open "/lfs/f" .readOnly) v₀).2
  have hanswers : backend.Answers v [⟨.truncate ⟨0⟩ 0, .ok ()⟩]
      (backend.answer (.truncate ⟨0⟩ 0) v).2 := .call (.truncate ⟨0⟩ 0) (.idle _)
  have hreads : v.ReadsThrough (fun _ => "/lfs/f") [⟨.truncate ⟨0⟩ 0, .ok ()⟩] := by
    intro event hevent
    obtain rfl := List.mem_singleton.1 hevent
    exact ⟨⟨0⟩, rfl, v₀, v, [], rfl, rfl⟩
  have hmap := (h v _ _ _ rfl hanswers hreads).1
  exact absurd (congrFun hmap "/lfs/f") (by decide)

end MemoryVolume
end FlashVolume

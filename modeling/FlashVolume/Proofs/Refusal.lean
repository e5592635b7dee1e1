import FlashVolume.Proofs.Digest.Reads
import FlashVolume.Proofs.Memory.Steps
import FlashVolume.Proofs.Path.Stages
/-!
# Operations on a volume that refuses

Section 10.2 of the specification: what is answered with `NotMounted`.

A volume that is not mounted refuses every call that names a path, and such a call leaves it as it
is (`Backend.RefusesPaths`). An operation of the library opens a file or a directory, looks at an
entry, or removes one before it does anything else, so it comes no further than its first call:

| operation | answer |
| --- | --- |
| finding | nothing: what cannot be read is not there |
| deleting by name, in a directory that is named | no file was deleted |
| any other | an error |

`Declines` says so, and `RefusesPaths.declines` proves it for every volume.
-/

universe u

namespace FlashVolume

variable {σ : Type u} {B : Backend σ} {s : σ} {α β : Type}

/-- Every call that names a path is answered with `notMounted`, and changes nothing. -/
def Backend.RefusesPaths (B : Backend σ) (s : σ) : Prop :=
  ∀ {α : Type} (c : Call α) (path : String), c.path? = some path →
    B.answer c s = (.error .notMounted, s)

namespace Operation

/-- The operation ends with an error and leaves the state as it is. -/
def Fails (B : Backend σ) (s : σ) (p : Operation α) : Prop :=
  ∃ e, runOn B p s = (.error e, s)

/-- An error fails, with no call made. -/
theorem fails_throw (e : Error) : Fails B s (throw e : Operation α) :=
  ⟨e, rfl⟩

/-- What would follow a failure is not reached. -/
theorem Fails.bind {p : Operation α} (h : Fails B s p) (f : α → Operation β) :
    Fails B s (p >>= f) := by
  obtain ⟨e, he⟩ := h
  exact ⟨e, by rw [runOn_bind, he]⟩

/-- An operation fails if what comes behind its first part does, and the first part changes
nothing. -/
theorem fails_bind_of_ok {p : Operation α} {f : α → Operation β} {a : α}
    (hp : runOn B p s = (.ok a, s)) (hf : Fails B s (f a)) : Fails B s (p >>= f) := by
  obtain ⟨e, he⟩ := hf
  exact ⟨e, by rw [runOn_bind, hp]; exact he⟩

/-- A failure stays one, whatever is made of a result. -/
theorem Fails.map {p : Operation α} (h : Fails B s p) (f : α → β) : Fails B s (f <$> p) := by
  obtain ⟨e, he⟩ := h
  exact ⟨e, by rw [runOn_map, he]; rfl⟩

/-- A choice fails if both ways do. -/
theorem Fails.ite {c : Prop} [Decidable c] {p q : Operation α} (hp : Fails B s p)
    (hq : Fails B s q) : Fails B s (if c then p else q) := by
  split
  · exact hp
  · exact hq

/-- A check in front of what fails. -/
theorem fails_check {c : Prop} [Decidable c] (e : Error) {f : Unit → Operation α}
    (h : Fails B s (f ())) : Fails B s ((if c then throw e else pure ()) >>= f) := by
  split
  · exact (fails_throw e).bind f
  · exact fails_bind_of_ok (runOn_pure B s ()) h

/-- An empty path is refused, any other fails where the work does. -/
theorem fails_requirePath {path : String} {f : Unit → Operation α} (h : Fails B s (f ())) :
    Fails B s (File.requirePath path >>= f) :=
  fails_check _ h

/-- An empty directory path is refused, any other fails where the work does. -/
theorem fails_requireDirectory {dir : String} {f : Unit → Operation α} (h : Fails B s (f ())) :
    Fails B s (Directory.requireDirectory dir >>= f) :=
  fails_check _ h

/-- An operation on a name in a directory fails if it fails on every path. -/
theorem fails_inDirectory {dir name : String} {config : Config} {work : String → Operation α}
    (h : ∀ path, Fails B s (work path)) : Fails B s (File.inDirectory dir name config work) := by
  rw [File.inDirectory]
  cases Path.resolve dir name config with
  | error e => exact (fails_throw e).bind work
  | ok path => exact h path

end Operation

namespace Backend.RefusesPaths

open Operation

variable (hs : B.RefusesPaths s)
include hs

/-- A call that takes a path is answered by an error while nothing is mounted. -/
theorem requestOr {c : Call α} {path : String} (hc : c.path? = some path)
    (fault : StorageError → Error) : Fails B s (Operation.requestOr fault c) :=
  ⟨fault .notMounted, by rw [runOn_requestOr, hs c path hc]; rfl⟩

/-- No file can be opened, so no work on one is reached. -/
theorem withFile (path : String) (mode : OpenMode) (work : FileHandle → Operation α) :
    Fails B s (File.withFile path mode work) :=
  ⟨_, by rw [runOn_withFile, hs (.open path mode) path rfl]⟩

/-! ### Files -/

/-- A read fails at its open. -/
theorem file_read (path : String) (offset : Nat) (buffer : Bytes) :
    Fails B s (File.read path offset buffer) :=
  fails_requirePath ((hs.requestOr (c := .stat path) rfl _).bind _)

/-- A size fails at its `stat`. -/
theorem file_size (path : String) : Fails B s (File.size path) :=
  fails_requirePath ((hs.requestOr (c := .stat path) rfl _).bind _)

/-- A write fails at its open. -/
theorem file_write (path : String) (data : Bytes) (config : Config) :
    Fails B s (File.write path data config) :=
  fails_requirePath ((hs.withFile path .replacing _).bind _)

/-- An append fails at its open. -/
theorem file_append (path : String) (data : Bytes) : Fails B s (File.append path data) :=
  fails_requirePath (hs.withFile path .appending _)

/-- A delete fails at its unlink. -/
theorem file_delete (path : String) : Fails B s (File.delete path) :=
  fails_requirePath (hs.requestOr (c := .unlink path) rfl _)

/-- A digest fails at its open, before it asks for a buffer. -/
theorem digest_ofFile [Allocator] (path : String) (size : Nat) (algorithm : Algorithm)
    (config : Config) :
    Fails B s (Digest.ofFile path size algorithm config) :=
  fails_requirePath (hs.withFile path .readOnly _)

/-! ### Directories -/

/-- A walk ends before its first entry, with the error of the open. -/
theorem enumerate {γ : Type} (dir : String) (visit : γ → Entry → ForInStep γ) (start : γ) :
    (Directory.enumerate dir visit start).run B s = ((start, some .notMounted), s) := by
  rw [Directory.enumerate, Program.run, hs (.opendir dir) dir rfl]
  rfl

/-- A search finds nothing: its first pass counts nothing. -/
theorem find [Allocator] (dir name : String) (kind : EntryKind) :
    (Directory.find dir name kind).run B s = ([], s) := by
  rw [Directory.find]
  split
  · rfl
  · rw [Program.bind_eq, Program.run_bind, hs.enumerate]
    rfl

/-- Collecting from a directory fails at its open. -/
theorem collect {γ : Type} (dir : String) (visit : γ → Entry → γ) (start : γ) :
    Fails B s (Directory.collect dir visit start) := by
  refine fails_bind_of_ok (a := (start, some .notMounted)) ?_ (fails_throw _)
  rw [runOn_ofProgram, hs.enumerate]

/-- A listing fails at its open. -/
theorem list (dir : String) : Fails B s (Directory.list dir) :=
  fails_requireDirectory (hs.collect dir _ _)

/-- With nothing found there is no match to name. -/
theorem uniqueSize [Allocator] (dir name : String) (kind : EntryKind) :
    Fails B s (Directory.uniqueSize dir name kind) := by
  refine fails_requireDirectory (fails_bind_of_ok (a := []) ?_ (fails_throw _))
  rw [runOn_ofProgram, hs.find]

/-- The scan of a history fails at its open. -/
theorem lastHistoryNumber (dir stem : String) :
    Fails B s (Directory.lastHistoryNumber dir stem) := by
  have hcollect := hs.collect dir
    (fun highest entry => max highest ((Directory.historyNumber? stem entry.name).getD 0)) 0
  exact .ite ((fails_throw _).bind _) hcollect

/-- A stage fails at the `stat` that looks for it. -/
theorem makeStage (path : String) : Fails B s (Directory.makeStage path) := by
  refine fails_bind_of_ok (a := .error .notMounted) ?_ ?_
  · rw [runOn_attempt, hs (.stat path) path rfl]
  · exact hs.requestOr (c := .mkdir path) rfl Error.ofStorage

/-- Of several stages, the first fails. -/
theorem forM_makeStage {stages : List String} (hne : stages ≠ []) :
    Fails B s (stages.forM Directory.makeStage) := by
  cases stages with
  | nil => exact absurd rfl hne
  | cons stage stages => exact (hs.makeStage stage).bind _

/-- A path has a stage to make, so making it fails. -/
theorem makePath (path : String) (recursive : Bool) (config : Config) :
    Fails B s (Directory.makePath path recursive config) := by
  rw [Directory.makePath]
  cases hclean : Path.normalizeWithin path config with
  | error e => exact (fails_throw e).bind _
  | ok clean =>
    refine fails_bind_of_ok (runOn_ofExcept B s (.ok clean)) ?_
    refine fails_bind_of_ok (a := .error .notMounted) ?_ ?_
    · rw [runOn_attempt, hs (.stat clean) clean rfl]
    · have hstages : ∀ target, (if recursive then Path.stages target else [target]) ≠ [] := by
        intro target
        obtain ⟨above, hconcat⟩ := Path.exists_stages_concat target
        cases recursive <;> simp [hconcat]
      exact .ite ((fails_throw _).bind _) (hs.forM_makeStage (hstages _))

/-- Nothing is found that could be deleted. -/
theorem deleteMatching [Allocator] {dir : String} (hdir : dir ≠ "") (name : String)
    (config : Config) :
    runOn B (Directory.deleteMatching dir name config) s = (.ok 0, s) := by
  have hempty : ¬dir.isEmpty = true := by simpa using hdir
  rw [Directory.deleteMatching, Directory.requireDirectory, if_neg hempty, runOn_bind, runOn_pure]
  dsimp only
  rw [runOn_bind, runOn_ofProgram, hs.find]
  rfl

end Backend.RefusesPaths

/-! ### Requests -/

/-- What the operations answer on a volume that refuses. -/
structure Backend.Declines [Allocator] (B : Backend σ) (s : σ) : Prop where
  find : ∀ config dir name kind,
    Operation.runOn B ((Request.find dir name kind).operation config) s = (.ok (.entries []), s)
  deleteMatching : ∀ config dir name, dir ≠ "" →
    Operation.runOn B ((Request.deleteMatching dir name).operation config) s
      = (.ok (.number 0), s)
  other : ∀ config (request : Request), (∀ dir name kind, request ≠ .find dir name kind) →
    (∀ dir name, dir ≠ "" → request ≠ .deleteMatching dir name) →
      Operation.Fails B s (request.operation config)

namespace Backend.RefusesPaths

open Operation

variable (hs : B.RefusesPaths s)
include hs

/-- Every request about one file fails. -/
theorem fileRequest (config : Config) (request : FileRequest) :
    Fails B s (request.operation config) := by
  cases request with
  | read path offset buffer => exact (hs.file_read path offset buffer).map _
  | write path data => exact (hs.file_write path data config).map _
  | append path data => exact (hs.file_append path data).map _
  | delete path => exact (hs.file_delete path).map _
  | size path => exact (hs.file_size path).map _

/-- A digest into a cell fails, and the cell stays as it was. -/
theorem digestInto [Allocator] (path : String) (size : Nat) (algorithm : Algorithm)
    (config : Config) (cell : Digest) :
    Fails B s ((Request.digestInto path size algorithm cell).operation config) := by
  obtain ⟨e, he⟩ := hs.digest_ofFile path size algorithm config
  have hrun : Program.run B (Digest.ofFile path size algorithm config).run s = (.error e, s) := he
  refine ⟨e, ?_⟩
  rw [Request.operation, Digest.run_intoCell, runOn, ExceptT.run_mk, Program.bind_eq,
    Program.run_bind, Program.run_bind, hrun]
  rfl

/-- **An operation comes no further than its first call.** -/
theorem declines [Allocator] : B.Declines s where
  find := by
    intro config dir name kind
    rw [Request.operation, runOn_map, runOn_ofProgram, hs.find]
    rfl
  deleteMatching := by
    intro config dir name hdir
    rw [Request.operation, runOn_map, hs.deleteMatching hdir]
    rfl
  other := by
    intro config request hfind hdelete
    cases request with
    | file request => exact hs.fileRequest config request
    | readIn dir name buffer =>
      exact (fails_inDirectory fun path => hs.file_read path 0 buffer).map _
    | writeIn dir name data =>
      exact (fails_inDirectory fun path => hs.file_write path data config).map _
    | appendIn dir name data =>
      exact (fails_inDirectory fun path => hs.file_append path data).map _
    | deleteIn dir name => exact (fails_inDirectory hs.file_delete).map _
    | sizeIn dir name => exact (fails_inDirectory hs.file_size).map _
    | digest path size algorithm => exact (hs.digest_ofFile path size algorithm config).map _
    | digestIn dir name size algorithm =>
      exact (fails_inDirectory fun path => hs.digest_ofFile path size algorithm config).map _
    | digestInto path size algorithm cell => exact hs.digestInto path size algorithm config cell
    | find dir name kind => exact absurd rfl (hfind dir name kind)
    | uniqueSize dir name kind => exact (hs.uniqueSize dir name kind).map _
    | list dir => exact (hs.list dir).map _
    | lastHistoryNumber dir stem => exact (hs.lastHistoryNumber dir stem).map _
    | makePath path recursive => exact (hs.makePath path recursive config).map _
    | make dir name =>
      exact (fails_inDirectory fun path => hs.makePath path false config).map _
    | deleteMatching dir name =>
      have hdir : dir = "" := by
        by_contra hdir
        exact hdelete dir name hdir rfl
      subst hdir
      exact ((fails_throw (.invalidInput "empty directory")).bind _).map _

end Backend.RefusesPaths

end FlashVolume

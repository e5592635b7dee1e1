import FlashVolume.Proofs.Footprints
import FlashVolume.Proofs.Memory.Changes
import FlashVolume.Proofs.Memory.Making
import FlashVolume.Proofs.Memory.Rewrites
import FlashVolume.Proofs.Storage.Finding
/-!
# What failures leave behind

Section 7 of the specification: what an operation that fails may leave.

A storage call that fails changes no entry (`pathMap_of_failed`). An operation makes several calls
and takes none back, so one that fails can leave what its calls did before:

| operation | what a failure leaves |
| --- | --- |
| `write`, `append` that could not open the file | the entries as they were |
| `write`, `append` that opened it | at the path what the calls so far made of the file |
| `makePath` that is recursive | directories on the way to the path |
| all others | the entries as they were |

`deleteMatching` fails only before it removes anything; one that stops half way answers how far it
has come. A write that has opened its file fails with `diskFull` or `ioError`, and none that could
not open its file does: the error tells the two apart (`Error.IsInterruption`). Directories are left
only on a volume in which some entry has no directory as its parent.
-/

namespace FlashVolume

namespace Error

/-- The error of a write that has begun. -/
def IsInterruption : Error → Prop
  | diskFull _ _ => True
  | ioError _ => True
  | _ => False

/-- The error of a storage call that is passed on is not taken for that of a write. -/
theorem not_isInterruption_ofStorage (e : StorageError) : ¬(ofStorage e).IsInterruption := by
  cases e <;> exact not_false

end Error

/-- What is to be written, where, and for what the file is opened. -/
structure Writing where
  mode : OpenMode
  path : String
  data : Bytes

namespace Request

/-- What the request asks to be written, if it does and its path resolves. -/
def writing? (config : Config) : Request → Option Writing
  | file (.write path data) => some ⟨.replacing, path, data⟩
  | file (.append path data) => some ⟨.appending, path, data⟩
  | writeIn dir name data =>
    (Path.resolve dir name config).toOption.map fun path => ⟨.replacing, path, data⟩
  | appendIn dir name data =>
    (Path.resolve dir name config).toOption.map fun path => ⟨.appending, path, data⟩
  | _ => none

end Request

namespace MemoryVolume

open Operation

variable {α : Type} {v v' : MemoryVolume} {file : FileHandle} {f : OpenFile} {old data : Bytes}
  {path : String} {config : Config}

/-! ### Calls -/

/-- **A call that fails changes no entry.** -/
theorem pathMap_of_failed (hv : v.Undisturbed) {c : Call α} {e : StorageError}
    (h : backend.answer c v = (.error e, v')) : v'.pathMap = v.pathMap := by
  cases c with
  | opendir path =>
    have hchange := answer_change hv (.opendir path)
    rw [h] at hchange
    exact hchange.eq_of_isQuery trivial
  | close file =>
    rw [← pathMap_close file v, h]
  | _ =>
    simp only [backend, answer, mount, statvfs, MemoryVolume.open, openAt, MemoryVolume.read,
      MemoryVolume.write, MemoryVolume.seek, MemoryVolume.truncate, MemoryVolume.stat, readdir,
      closedir, mkdir, unlink, whenMounted] at h
    repeat' split at h
    all_goals cases h
    all_goals rfl

/-- Only `mount` touches the faults. -/
theorem faults_answer {c : Call α} (hc : c.name ≠ .mount) :
    (backend.answer c v).2.faults = v.faults := by
  cases c with
  | mount => exact absurd rfl hc
  | _ =>
    simp only [backend, answer, statvfs, MemoryVolume.open, openAt, MemoryVolume.read,
      MemoryVolume.write, MemoryVolume.seek, MemoryVolume.truncate, close, MemoryVolume.stat,
      opendir, beforeOpendir, readdir, closedir, mkdir, unlink, whenMounted]
    repeat' split
    all_goals rfl

/-- A program of queries changes no entry. -/
theorem pathMap_of_isQuery (hv : v.Undisturbed) {p : Program α} (hp : p.Only Call.IsQuery) :
    (p.run backend v).2.pathMap = v.pathMap := by
  have hcall : ∀ {γ : Type} (c : Call γ) v, c.IsQuery →
      Retains Undisturbed pathMap v (backend.answer c v).2 :=
    fun c v hc hv => ⟨hv.answer c, (answer_change hv c).eq_of_isQuery hc⟩
  exact (hp.run_rel .refl (fun _ _ _ => .trans) hcall v hv).2

/-- Queries change no entry, whether they succeed or not. -/
theorem pathMap_of_queries (hv : v.Undisturbed) {p : Operation α}
    (hp : Operation.Only Call.IsQuery p) : (runOn backend p v).2.pathMap = v.pathMap :=
  pathMap_of_isQuery hv hp

/-! ### Writing -/

/-- The contents that a write leaves of a file with the contents `old`, if it is opened. -/
def leftover (faults : Faults) (mode : OpenMode) (data old : Bytes) : Bytes :=
  if mode.append then old ++ data.take (stored faults data)
  else afterWrite faults (old.resize data.length) data

/-- An operation that writes to a file has not opened it and has changed nothing, or it has given
the file new contents and its error, if it has one, is that of a write. -/
def Rewrites (v : MemoryVolume) (path : String) (change : Bytes → Bytes)
    (result : Except Error α × MemoryVolume) : Prop :=
  (∃ e, result.1 = .error e ∧ ¬e.IsInterruption ∧ result.2.pathMap = v.pathMap) ∨
  (∀ e, result.1 = .error e → e.IsInterruption) ∧ ∃ old, v.pathMap.beforeWrite path = .ok old ∧
    result.2.pathMap = v.pathMap.update path (some (.file (change old)))

/-- A failed close counts as a write that has begun. -/
theorem isInterruption_afterClose {result : Except Error α} {closed : Except StorageError Unit}
    (h : ∀ e, result = .error e → e.IsInterruption) :
    ∀ e, File.afterClose path result closed = .error e → e.IsInterruption := by
  rintro e he
  cases result with
  | error e' =>
    cases he
    exact h e rfl
  | ok a =>
    cases closed with
    | error e' =>
      cases he
      trivial
    | ok _ => cases he

/-- Work on a file that gives it new contents, however it ends. -/
theorem withFile_rewrites (hv : v.Undisturbed) {mode : OpenMode} (hmode : mode.create = true)
    {change : Bytes → Bytes} {work : FileHandle → Operation Nat}
    (hwork : ∀ (v₁ : MemoryVolume) file old, v₁.faults = v.faults →
      v₁.Holds file ⟨path, if mode.append then old.length else 0, mode⟩ old →
      (∀ e, (runOn backend (work file) v₁).1 = .error e → e.IsInterruption) ∧
        (runOn backend (work file) v₁).2.pathMap =
          v₁.pathMap.update path (some (.file (change old)))) :
    v.Rewrites path change (runOn backend (File.withFile path mode work) v) := by
  rw [runOn_withFile]
  rcases hopen : backend.answer (.open path mode) v with ⟨e | file, v₁⟩
  · refine .inl ⟨_, rfl, Error.not_isInterruption_ofStorage e, ?_⟩
    exact pathMap_of_failed hv hopen
  · obtain ⟨old, hbefore, hholds, hopened⟩ := open_creating_holds hmode hopen
    have hfaults : v₁.faults = v.faults := by
      have hkept := faults_answer (v := v) (c := .open path mode) nofun
      rwa [hopen] at hkept
    obtain ⟨hanswer, hmap⟩ := hwork v₁ file old hfaults hholds
    rcases hrun : runOn backend (work file) v₁ with ⟨result, v₂⟩
    rw [hrun] at hanswer hmap
    have hclosed := pathMap_close file v₂
    rcases hclose : backend.answer (.close file) v₂ with ⟨closed, v₃⟩
    rw [hclose] at hclosed
    simp only [hrun, hclose]
    refine .inr ⟨isInterruption_afterClose hanswer, old, hbefore, ?_⟩
    rw [hclosed, hmap, hopened, PathMap.update_update]

/-- Writing all of the data ends as the write does, and fails if that took less. -/
theorem writeAll_interrupted {n : Nat} {m : PathMap}
    (h : ∃ v', backend.answer (.write file data) v = (.ok n, v') ∧ v'.pathMap = m) :
    (∀ e, (runOn backend (File.writeAll file data) v).1 = .error e → e.IsInterruption) ∧
      (runOn backend (File.writeAll file data) v).2.pathMap = m := by
  obtain ⟨v', hwrite, hmap⟩ := h
  by_cases hall : n = data.length
  · simp [File.writeAll, hwrite, hall, hmap]
  · have hrun : runOn backend (File.writeAll file data) v =
        (.error (.diskFull n data.length), v') := by
      simp [File.writeAll, hwrite, hall]
    rw [hrun]
    refine ⟨?_, hmap⟩
    rintro e ⟨⟩
    trivial

/-- **An append has not begun, or it leaves the old contents and the front of the data.** -/
theorem append_rewrites (hv : v.Undisturbed) (path : String) (data : Bytes) :
    v.Rewrites path (leftover v.faults .appending data)
      (runOn backend (File.append path data) v) := by
  by_cases hpath : path = ""
  · refine .inl ⟨.invalidInput "empty path", ?_, not_false, ?_⟩
    · simp [File.append, hpath]
    · simp [File.append, hpath]
  · have hrun : runOn backend (File.append path data) v =
        runOn backend (File.withFile path .appending fun file => File.writeAll file data) v := by
      simp [File.append, hpath]
    rw [hrun]
    refine withFile_rewrites hv rfl ?_
    intro v₁ file old hfaults hholds
    rw [← hfaults]
    exact writeAll_interrupted (hholds.write_end data)

/-- A `stat` leaves the volume as it was. -/
theorem stat_unchanged (path : String) (v : MemoryVolume) :
    (backend.answer (.stat path) v).2 = v := by
  simp only [backend, answer, MemoryVolume.stat, whenMounted]
  repeat' split
  all_goals rfl

/-- The check of the size does not touch the volume, and fails as a write that has begun does. -/
theorem runOn_verifySize_interrupted (path : String) (desired : Nat) (v : MemoryVolume) :
    (∀ e, (runOn backend (File.verifySize path desired) v).1 = .error e → e.IsInterruption) ∧
      (runOn backend (File.verifySize path desired) v).2 = v := by
  have hsize : (runOn backend (File.size path) v).2 = v := by
    have hstat := stat_unchanged path v
    rcases hanswer : backend.answer (.stat path) v with ⟨_ | entry, v'⟩ <;>
      rw [hanswer] at hstat <;> by_cases hpath : path = "" <;>
      simp [File.size, hpath, hanswer, hstat]
  rw [File.verifySize, runOn_bind, runOn_observe, hsize]
  cases (runOn backend (File.size path) v).1 with
  | error e =>
    refine ⟨?_, rfl⟩
    rintro e' ⟨⟩
    trivial
  | ok actual =>
    by_cases hsame : actual = desired
    · simp [hsame]
    · simp [hsame, Error.IsInterruption]

/-- The work of a write on its file, without the check behind it. -/
theorem replace_rewrites (hv : v.Undisturbed) (path : String) (data : Bytes) :
    v.Rewrites path (leftover v.faults .replacing data)
      (runOn backend (File.withFile path .replacing fun file => do
        Operation.request (.truncate file data.length)
        File.writeAll file data) v) := by
  refine withFile_rewrites hv rfl ?_
  intro v₁ file old hfaults hholds
  obtain ⟨v₂, htruncate, hholds₂, hresized⟩ := hholds.truncate data.length
  have hfaults₂ : v₂.faults = v.faults := by
    have hother : (Call.truncate file data.length).name ≠ .mount := by simp [Call.name]
    have hkept := faults_answer (v := v₁) hother
    rw [htruncate] at hkept
    exact hkept.trans hfaults
  have hwrite := hholds₂.write data
  rw [hresized, PathMap.update_update, hfaults₂] at hwrite
  simp only [runOn_bind, runOn_request, htruncate, mapError_ok]
  exact writeAll_interrupted hwrite

/-- **A write has not begun, or it leaves what the last of its calls made of the file.** -/
theorem write_rewrites (hv : v.Undisturbed) (path : String) (data : Bytes) (config : Config) :
    v.Rewrites path (leftover v.faults .replacing data)
      (runOn backend (File.write path data config) v) := by
  by_cases hpath : path = ""
  · refine .inl ⟨.invalidInput "empty path", ?_, not_false, ?_⟩
    · simp [File.write, hpath]
    · simp [File.write, hpath]
  · have hfile := replace_rewrites hv path data
    rw [File.write, runOn_bind, runOn_requirePath, if_neg (mt String.isEmpty_iff.1 hpath)]
    dsimp only
    rw [runOn_bind]
    rcases hrun : runOn backend (File.withFile path .replacing fun file => do
      Operation.request (.truncate file data.length)
      File.writeAll file data) v with ⟨e | written, v₁⟩
    · rw [hrun] at hfile
      exact hfile
    · rw [hrun] at hfile
      obtain ⟨old, hbefore, hmap⟩ : ∃ old, v.pathMap.beforeWrite path = .ok old ∧ v₁.pathMap =
          v.pathMap.update path (some (.file (leftover v.faults .replacing data old))) := by
        rcases hfile with ⟨e, he, -⟩ | ⟨-, hrewritten⟩
        · cases he
        · exact hrewritten
      -- The file has its new contents, and the check of the size changes nothing any more.
      obtain ⟨hinterrupted, hkept⟩ := runOn_verifySize_interrupted path data.length v₁
      rcases hverify : runOn backend (File.verifySize path data.length) v₁ with ⟨result, v₂⟩
      rw [hverify] at hinterrupted hkept
      obtain rfl : v₂ = v₁ := hkept
      by_cases hcheck : config.checksSize
      · dsimp only
        rw [if_pos hcheck, runOn_bind, hverify]
        cases result with
        | error e => exact .inr ⟨by simpa using hinterrupted, old, hbefore, hmap⟩
        | ok _ => exact .inr ⟨fun e he => (by cases he), old, hbefore, hmap⟩
      · dsimp only
        rw [if_neg hcheck]
        exact .inr ⟨fun e he => (by cases he), old, hbefore, hmap⟩

/-! ### Removing and making -/

/-- Removing an entry is one call. -/
theorem delete_failed (hv : v.Undisturbed) {e : Error}
    (h : runOn backend (File.delete path) v = (.error e, v')) : v'.pathMap = v.pathMap := by
  by_cases hpath : path = ""
  · rw [File.delete, runOn_bind, runOn_requirePath, if_pos (String.isEmpty_iff.2 hpath)] at h
    cases h
    rfl
  · rw [runOn_delete hpath] at h
    rcases hunlink : backend.answer (.unlink path) v with ⟨e' | _, v₁⟩
    · rw [hunlink] at h
      cases h
      exact pathMap_of_failed hv hunlink
    · rw [hunlink] at h
      cases h

/-- Removing the entries that match fails only before anything has been removed. -/
theorem deleteMatching_failed [Allocator] (hv : v.Undisturbed) {dir name : String} {e : Error}
    (h : runOn backend (Directory.deleteMatching dir name config) v = (.error e, v')) :
    v'.pathMap = v.pathMap := by
  by_cases hdir : dir = ""
  · rw [Directory.deleteMatching, Directory.requireDirectory, runOn_bind,
      if_pos (String.isEmpty_iff.2 hdir)] at h
    cases h
    rfl
  · have hfound := pathMap_of_isQuery hv (Directory.find_only dir name .file)
    rw [Directory.deleteMatching, Directory.requireDirectory, runOn_bind,
      if_neg (mt String.isEmpty_iff.1 hdir), runOn_pure] at h
    dsimp only at h
    rw [runOn_bind, runOn_ofProgram] at h
    rw [(Directory.deleteEach_failed h).1, hfound]

/-- A stage that is not made leaves the volume as it was. -/
theorem makeStage_failed (hmounted : v.mounted = true) {e : Error}
    (h : runOn backend (Directory.makeStage path) v = (.error e, v')) : v' = v := by
  rw [runOn_makeStage hmounted] at h
  repeat' split at h
  all_goals cases h
  all_goals rfl

/-- **Directories are left behind only by a recursive request,** and only on a volume that is not
closed. -/
theorem makePath_failed (hmounted : v.mounted = true) {recursive : Bool}
    (hclosed : recursive = true → v.pathMap.IsClosed) {e : Error}
    (h : runOn backend (Directory.makePath path recursive config) v = (.error e, v')) : v' = v := by
  cases hclean : Path.normalizeWithin path config with
  | error e' =>
    rw [Directory.makePath, runOn_bind, runOn_ofExcept, hclean] at h
    cases h
    rfl
  | ok clean =>
    rw [runOn_makePath hmounted hclean] at h
    split at h
    · cases h
    · cases h
      rfl
    · split at h
      · cases h
        rfl
      · cases recursive with
        | true =>
          exact runOn_forM_error hmounted (hclosed rfl) (Path.isDescent_stages _)
            (Path.nodup_stages _) h
        | false =>
          rw [if_neg Bool.false_ne_true, runOn_forM_cons] at h
          rcases hstage : runOn backend (Directory.makeStage (Path.trimSeparators clean)) v with
            ⟨e' | _, v₁⟩
          · rw [hstage] at h
            cases h
            exact makeStage_failed hmounted hstage
          · rw [hstage] at h
            cases h

/-- What making a path leaves, whether it fails or not, is directories on the way that were
missing. -/
theorem makePath_made (hmounted : v.mounted = true) (path : String) (recursive : Bool)
    (config : Config) :
    ∃ made : List String,
      (∀ stage ∈ made, v.pathMap stage = none ∧ ∃ clean,
        Path.normalizeWithin path config = .ok clean ∧
          Path.IsStage stage (Path.trimSeparators clean)) ∧
      v.HasMade made (runOn backend (Directory.makePath path recursive config) v).2 := by
  cases hclean : Path.normalizeWithin path config with
  | error e =>
    rw [Directory.makePath, runOn_bind, runOn_ofExcept, hclean]
    exact ⟨[], List.forall_mem_nil _, .nil v⟩
  | ok clean =>
    rw [runOn_makePath hmounted hclean]
    cases v.pathMap clean with
    | some node =>
      cases node <;> exact ⟨[], List.forall_mem_nil _, .nil v⟩
    | none =>
      by_cases htarget : Path.trimSeparators clean = ""
      · simp only [if_pos htarget]
        exact ⟨[], List.forall_mem_nil _, .nil v⟩
      · simp only [if_neg htarget]
        obtain ⟨made, hmem, hmade⟩ := exists_made hmounted
          (if recursive then Path.stages (Path.trimSeparators clean)
            else [Path.trimSeparators clean])
        refine ⟨made, ?_, hmade⟩
        intro stage hstage
        obtain ⟨hwalk, hfree⟩ := hmem stage hstage
        refine ⟨hfree, clean, rfl, ?_⟩
        cases recursive with
        | true => exact (Path.mem_stages_iff htarget).1 hwalk
        | false =>
          obtain rfl : stage = Path.trimSeparators clean := by simpa using hwalk
          exact ⟨htarget, .inl rfl⟩

/-! ### Requests -/

/-- What is made of a result does not change what was rewritten. -/
theorem Rewrites.map {β : Type} {change : Bytes → Bytes} {result : Except Error α × MemoryVolume}
    (h : v.Rewrites path change result) (f : α → β) :
    v.Rewrites path change (result.1.map f, result.2) := by
  obtain ⟨_ | a, v'⟩ := result
  · rcases h with ⟨e, he, hkept⟩ | ⟨hinterrupted, hrewritten⟩
    · cases he
      exact .inl ⟨_, rfl, hkept⟩
    · refine .inr ⟨?_, hrewritten⟩
      rintro e ⟨⟩
      exact hinterrupted _ rfl
  · rcases h with ⟨e, he, -⟩ | ⟨-, hrewritten⟩
    · cases he
    · exact .inr ⟨nofun, hrewritten⟩

/-- An operation fails as what it is made of. -/
theorem runOn_map_failed {β : Type} {p : Operation α} {f : α → β} {e : Error}
    (h : runOn backend (f <$> p) v = (.error e, v')) : runOn backend p v = (.error e, v') := by
  rw [runOn_map] at h
  rcases hrun : runOn backend p v with ⟨e' | a, v₁⟩ <;> rw [hrun] at h <;> cases h
  rfl

/-- A request about a directory and a name is one about the path they make. -/
theorem runOn_inDirectory {dir name : String} (work : String → Operation α) (v : MemoryVolume) :
    runOn backend (File.inDirectory dir name config work) v =
      match Path.resolve dir name config with
      | .ok path => runOn backend (work path) v
      | .error e => (.error e, v) := by
  rw [File.inDirectory, runOn_bind, runOn_ofExcept]
  cases Path.resolve dir name config <;> rfl

/-- What does not resolve does not change anything. -/
theorem inDirectory_failed {dir name : String} {work : String → Operation α} {e : Error}
    (hwork : ∀ path, Path.resolve dir name config = .ok path →
      runOn backend (work path) v = (.error e, v') → v'.pathMap = v.pathMap)
    (h : runOn backend (File.inDirectory dir name config work) v = (.error e, v')) :
    v'.pathMap = v.pathMap := by
  rw [runOn_inDirectory] at h
  cases hresolve : Path.resolve dir name config with
  | error e' =>
    rw [hresolve] at h
    cases h
    rfl
  | ok path =>
    rw [hresolve] at h
    exact hwork path hresolve h

/-- An answer that is there is no error. -/
theorem eq_ok_of_toOption {answer : Except Error α} {a : α} (h : answer.toOption = some a) :
    answer = .ok a := by
  cases answer <;> cases h
  rfl

/-- A request that writes rewrites its file. -/
theorem operation_rewrites [Allocator] (hv : v.Undisturbed) {request : Request} {w : Writing}
    (hw : request.writing? config = some w) :
    v.Rewrites w.path (leftover v.faults w.mode w.data)
      (runOn backend (request.operation config) v) := by
  cases request with
  | file request =>
    cases request with
    | write path data =>
      cases hw
      rw [Request.operation, FileRequest.operation, runOn_map]
      exact (write_rewrites hv path data config).map _
    | append path data =>
      cases hw
      rw [Request.operation, FileRequest.operation, runOn_map]
      exact (append_rewrites hv path data).map _
    | _ => cases hw
  | writeIn dir name data =>
    obtain ⟨path, hresolve, rfl⟩ := Option.map_eq_some_iff.1 hw
    rw [Request.operation, File.writeIn, runOn_map, runOn_inDirectory,
      eq_ok_of_toOption hresolve]
    exact (write_rewrites hv path data config).map _
  | appendIn dir name data =>
    obtain ⟨path, hresolve, rfl⟩ := Option.map_eq_some_iff.1 hw
    rw [Request.operation, File.appendIn, runOn_map, runOn_inDirectory,
      eq_ok_of_toOption hresolve]
    exact (append_rewrites hv path data).map _
  | _ => cases hw

/-- A request that fails and does not write changes no entry, unless it makes the directories on the
way to a path on a volume that is not closed. -/
theorem operation_failed [Allocator] (hmounted : v.mounted = true) (hv : v.Undisturbed)
    {request : Request} (hwriting : request.writing? config = none)
    (hclosed : ∀ path, request = .makePath path true → v.pathMap.IsClosed) {e : Error}
    (h : runOn backend (request.operation config) v = (.error e, v')) : v'.pathMap = v.pathMap := by
  by_cases hquery : request.IsQuery
  · have hkept := pathMap_of_queries hv (request.operation_isQuery config hquery)
    rwa [h] at hkept
  · cases request with
    | file request =>
      cases request with
      | write path data => cases hwriting
      | append path data => cases hwriting
      | delete path => exact delete_failed hv (runOn_map_failed h)
      | _ => exact absurd trivial hquery
    | writeIn dir name data =>
      refine inDirectory_failed ?_ (runOn_map_failed h)
      intro path hresolve
      simp [Request.writing?, hresolve, Except.toOption] at hwriting
    | appendIn dir name data =>
      refine inDirectory_failed ?_ (runOn_map_failed h)
      intro path hresolve
      simp [Request.writing?, hresolve, Except.toOption] at hwriting
    | deleteIn dir name =>
      exact inDirectory_failed (fun path _ => delete_failed hv) (runOn_map_failed h)
    | makePath path recursive =>
      have hkept := makePath_failed hmounted
        (fun hrecursive => hclosed path (by rw [hrecursive])) (runOn_map_failed h)
      rw [hkept]
    | make dir name =>
      refine inDirectory_failed ?_ (runOn_map_failed h)
      intro path _ hrun
      rw [makePath_failed hmounted (fun h => absurd h Bool.false_ne_true) hrun]
    | deleteMatching dir name => exact deleteMatching_failed hv (runOn_map_failed h)
    | _ => exact absurd trivial hquery

/-! ### What is left -/

/-- What a request that has failed leaves of the map behind the volume. -/
structure Leaves (v : MemoryVolume) (config : Config) (request : Request) (e : Error)
    (m : PathMap) : Prop where
  /-- Nothing has changed, unless a write has begun or directories can have been left. -/
  same : (request.writing? config = none ∨ ¬e.IsInterruption) →
    (∀ path, request = .makePath path true → v.pathMap.IsClosed) → m = v.pathMap
  /-- A write that has begun has rewritten its file, and nothing else. -/
  rewritten : ∀ w, request.writing? config = some w → e.IsInterruption →
    ∃ old, v.pathMap.beforeWrite w.path = .ok old ∧
      m = v.pathMap.update w.path (some (.file (leftover v.faults w.mode w.data old)))
  /-- Directories are left on the way to a path, and nothing else has changed. -/
  made : ∀ path, request = .makePath path true → ∀ p, m p = v.pathMap p ∨
    v.pathMap p = none ∧ m p = some .directory ∧ ∃ clean,
      Path.normalizeWithin path config = .ok clean ∧
        Path.IsStage p (Path.trimSeparators clean)

/-- **What a failure leaves.** On a mounted volume, and whatever faults are switched on besides the
one that removes entries behind the back of the calls: a request that fails has changed nothing, but
for a write that has begun, and for directories that were made on a volume that is not closed. -/
theorem leaves_of_failed [Allocator] (hmounted : v.mounted = true) (hv : v.Undisturbed)
    {request : Request}
    {e : Error} (h : runOn backend (request.operation config) v = (.error e, v')) :
    v.Leaves config request e v'.pathMap := by
  refine ⟨?_, ?_, ?_⟩
  · intro hnone hclosed
    cases hw : request.writing? config with
    | none => exact operation_failed hmounted hv hw hclosed h
    | some w =>
      have hfree : ¬e.IsInterruption := hnone.resolve_left (by rw [hw]; exact Option.some_ne_none w)
      have hrewrites := operation_rewrites hv hw
      rw [h] at hrewrites
      rcases hrewrites with ⟨-, -, -, hkept⟩ | ⟨hinterrupted, -⟩
      · exact hkept
      · exact absurd (hinterrupted e rfl) hfree
  · intro w hw hinterrupted
    have hrewrites := operation_rewrites hv hw
    rw [h] at hrewrites
    rcases hrewrites with ⟨e', he, hfree, -⟩ | ⟨-, hrewritten⟩
    · cases he
      exact absurd hinterrupted hfree
    · exact hrewritten
  · rintro path rfl p
    obtain ⟨made, hmem, hmade⟩ := makePath_made hmounted path true config
    rw [runOn_map_failed h] at hmade
    have hnode := hmade.node p
    by_cases hp : p ∈ made
    · rw [if_pos hp] at hnode
      exact .inr ⟨(hmem p hp).1, hnode, (hmem p hp).2⟩
    · rw [if_neg hp] at hnode
      exact .inl hnode

/-- A longer file that could not be replaced has its new length and the bytes that were taken. -/
theorem leaves_of_failed_diskFull :
    letI : Allocator := .upTo 1024 16
    let v := ((newMounted "/lfs").insertFile "/lfs/a" [9, 9, 9, 9, 9]).setFaults
      { writeLimit := some 3, failClose := true }
    let result := runOn backend (Request.operation {} (.file (.write "/lfs/a" [1, 2, 3, 4]))) v
    v.mounted = true ∧ v.Undisturbed ∧ result.1 = .error (.diskFull 3 4) ∧
      result.2.pathMap = v.pathMap.update "/lfs/a" (some (.file [1, 2, 3, 9])) := by
  intro v result
  let _ : Allocator := .upTo 1024 16
  have hanswer : result.1 = .error (.diskFull 3 4) := by decide
  have hleaves := leaves_of_failed (v := v) rfl rfl (Prod.ext hanswer rfl)
  obtain ⟨old, hbefore, hmap⟩ := hleaves.rewritten _ rfl trivial
  have hold : v.pathMap.beforeWrite "/lfs/a" = .ok [9, 9, 9, 9, 9] := by decide
  cases hbefore.symm.trans hold
  exact ⟨rfl, rfl, hanswer, hmap⟩

/-- **A failure does not always leave the entries as they were:** a file that could not be written
in full stays behind. -/
theorem not_pathMap_eq_of_failed :
    letI : Allocator := .upTo 1024 16
    ¬∀ (v v' : MemoryVolume) (config : Config) (request : Request) (e : Error),
      v.mounted = true → v.Undisturbed → (∀ dir name, request ≠ .deleteMatching dir name) →
        runOn backend (request.operation config) v = (.error e, v') → v'.pathMap = v.pathMap := by
  intro h
  let _ : Allocator := .upTo 1024 16
  let v := (newMounted "/lfs").setFaults { writeLimit := some 3 }
  let request : Request := .file (.write "/lfs/a" [1, 2, 3, 4])
  let result := runOn backend (request.operation {}) v
  have hanswer : result.1 = .error (.diskFull 3 4) := by decide
  have hmap := h v result.2 {} request _ rfl rfl nofun (Prod.ext hanswer rfl)
  exact absurd (congrFun hmap "/lfs/a") (by decide)

end MemoryVolume
end FlashVolume

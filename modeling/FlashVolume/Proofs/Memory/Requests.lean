import FlashVolume.Proofs.Memory.Calls
/-!
# Files on a volume without faults

Section 8 of the specification: what is written is read back.

On a mounted volume without faults the operations on a single file do what the map machine of
`PathMap` says. `Yields` is what is shown of an operation: its answer, that the volume stays
ready, and the map behind the volume afterwards.
-/

namespace FlashVolume
namespace MemoryVolume

open Operation

variable {α β : Type} {v : MemoryVolume} {m : PathMap}

/-- An operation on the volume answers `answer` and leaves a volume that is ready, with the map `m`
behind it. -/
def Yields (v : MemoryVolume) (p : Operation α) (answer : Except Error α) (m : PathMap) : Prop :=
  ∃ v', runOn backend p v = (answer, v') ∧ v'.IsReady ∧ v'.pathMap = m

namespace Yields

/-- What is made of an answer does not change the map. -/
theorem map {p : Operation α} {answer : Except Error α} (h : v.Yields p answer m) (f : α → β) :
    v.Yields (f <$> p) (answer.map f) m := by
  obtain ⟨v', hrun, hv', hm⟩ := h
  refine ⟨v', ?_, hv', hm⟩
  rw [runOn_map, hrun]

/-- A path that is not empty is not refused. -/
theorem requirePath {path : String} (hpath : path ≠ "") {work : Unit → Operation α}
    {answer : Except Error α} (h : v.Yields (work ()) answer m) :
    v.Yields (File.requirePath path >>= work) answer m := by
  obtain ⟨v', hrun, hv', hm⟩ := h
  refine ⟨v', ?_, hv', hm⟩
  simp [hpath, hrun]

/-- Going on with something that hands the answer on and leaves the map as it is. -/
theorem andThen {p : Operation α} {answer : Except Error α} {rest : α → Operation α}
    (h : v.Yields p answer m)
    (hrest : ∀ a (v' : MemoryVolume), answer = .ok a → v'.IsReady → v'.pathMap = m →
      v'.Yields (rest a) (.ok a) m) :
    v.Yields (p >>= rest) answer m := by
  obtain ⟨v', hrun, hv', hm⟩ := h
  cases answer with
  | error e =>
    refine ⟨v', ?_, hv', hm⟩
    simp only [runOn_bind, hrun]
  | ok a =>
    obtain ⟨v₂, hrun₂, hv₂, hm₂⟩ := hrest a v' rfl hv' hm
    refine ⟨v₂, ?_, hv₂, hm₂⟩
    simp only [runOn_bind, hrun, hrun₂]

/-- Work between an `open` that succeeds and its `close`. -/
theorem withFile {path : String} {mode : OpenMode} {work : FileHandle → Operation α}
    {file : FileHandle} {answer : Except Error α} {v₁ : MemoryVolume}
    (hopen : backend.answer (.open path mode) v = (.ok file, v₁))
    (hwork : v₁.Yields (work file) answer m) :
    v.Yields (File.withFile path mode work) answer m := by
  obtain ⟨v₂, hrun, hv₂, hm⟩ := hwork
  obtain ⟨v₃, hclose, hv₃, hkept⟩ := close_ready hv₂ file
  refine ⟨v₃, ?_, hv₃, hkept.trans hm⟩
  simp only [runOn_withFile, hopen, hrun, hclose]
  cases answer <;> rfl

end Yields

/-! ### Contents -/

/-- Bytes of the same length replace the old ones. -/
theorem overwrite_zero_of_length {old data : Bytes} (h : old.length = data.length) :
    old.overwrite 0 data = data := by
  simp [Bytes.overwrite, h]

/-- Bytes written at the end are appended. -/
theorem overwrite_end (old data : Bytes) : old.overwrite old.length data = old ++ data := by
  simp [Bytes.overwrite]

/-- Bytes that fit into a buffer are at its front. -/
theorem take_fill {buffer bytes : Bytes} (h : bytes.length ≤ buffer.length) :
    (File.fill buffer bytes).buffer.take (File.fill buffer bytes).count = bytes := by
  rw [File.fill, List.take_of_length_le h, List.take_left]

/-- What is read from an offset fills the front of the buffer. -/
theorem fill_drop_take (data buffer : Bytes) (offset : Nat) :
    File.fill buffer ((data.drop offset).take buffer.length) =
      ⟨min buffer.length (data.length - offset),
        (data.drop offset).take (min buffer.length (data.length - offset)) ++
          buffer.drop (min buffer.length (data.length - offset))⟩ := by
  have hlength : ((data.drop offset).take buffer.length).length =
      min buffer.length (data.length - offset) := by
    simp
  rw [File.fill, hlength, List.take_take, Nat.min_self]
  congr 2
  rw [List.take_eq_take_iff]
  simp

/-! ### Operations -/

section Operations

variable {file : FileHandle} {f : OpenFile} {old : Bytes} {path : String}

/-- Writing all of the data puts it at the position, or at the end of the file. -/
theorem Working.writeAll (h : v.Working file f old) (hmode : f.mode.write = true) (data : Bytes) :
    v.Yields (File.writeAll file data) (.ok data.length) (v.pathMap.update f.path (some (.file
      (old.overwrite (if f.mode.append then old.length else f.position) data)))) := by
  obtain ⟨v', hwrite, hv', hm⟩ := h.write hmode data
  refine ⟨v', ?_, hv', hm⟩
  simp [File.writeAll, hwrite]

/-- **Work on a file that is opened for writing.**  If on every file it answers `count` and changes
the contents by `change`, the operation replaces the contents of the file. -/
theorem withFile_replace (hv : v.IsReady) (mode : OpenMode) (hmode : mode.create = true)
    {work : FileHandle → Operation Nat} {change : Bytes → Bytes} {count : Nat}
    (hwork : ∀ (v₁ : MemoryVolume) file old,
      v₁.Working file ⟨path, if mode.append then old.length else 0, mode⟩ old →
      v₁.Yields (work file) (.ok count) (v₁.pathMap.update path (some (.file (change old))))) :
    v.Yields (File.withFile path mode work) ((v.pathMap.beforeWrite path).map fun _ => count)
      (v.pathMap.replace path change count).2 := by
  have hopening := open_creating hv path mode hmode
  cases hbefore : v.pathMap.beforeWrite path with
  | ok old =>
    rw [hbefore] at hopening
    obtain ⟨file, v₁, hopen, hworking, hmap⟩ := hopening
    have hyields := hwork v₁ file old hworking
    rw [hmap, PathMap.update_update] at hyields
    simpa [PathMap.replace, hbefore] using hyields.withFile hopen
  | error e =>
    rw [hbefore] at hopening
    obtain ⟨e', hopen, rfl⟩ := hopening
    refine ⟨v, ?_, hv, ?_⟩
    · simp [runOn_withFile, hopen]
    · simp [PathMap.replace, hbefore]

/-- **Appending**: the new bytes stand behind the old ones. -/
theorem append_yields (hv : v.IsReady) (hpath : path ≠ "") (data : Bytes) :
    v.Yields (File.append path data) ((v.pathMap.beforeWrite path).map fun _ => data.length)
      (v.pathMap.replace path (fun old => old ++ data) data.length).2 := by
  refine Yields.requirePath hpath (withFile_replace hv .appending rfl ?_)
  intro v₁ file old hworking
  have hyields := hworking.writeAll rfl data
  simpa [OpenMode.appending, overwrite_end] using hyields

/-- The size of an entry is that of the node at its path. -/
theorem runOn_size (hv : v.IsReady) (hpath : path ≠ "") :
    runOn backend (File.size path) v =
      ((match v.pathMap path with
        | some (.file data) => .ok data.length
        | some .directory => .ok 0
        | none => .error (.notFound path)), v) := by
  simp only [File.size, runOn_bind, runOn_requirePath, String.isEmpty_iff, hpath, if_false,
    runOn_requestOr]
  rw [stat_mounted hv.mounted]
  cases v.pathMap path with
  | none => rfl
  | some node => cases node <;> rfl

/-- **The size**: the length of a file, or zero for a directory. -/
theorem size_yields (hv : v.IsReady) (hpath : path ≠ "") :
    v.Yields (.number <$> File.size path) (v.pathMap.size path) v.pathMap := by
  refine ⟨v, ?_, hv, rfl⟩
  rw [runOn_map, runOn_size hv hpath, PathMap.size]
  cases v.pathMap path with
  | none => rfl
  | some node => cases node <;> rfl

/-- A file that has the desired size passes the check. -/
theorem verifySize_yields (hv : v.IsReady) (hpath : path ≠ "") {data : Bytes}
    (hnode : v.pathMap path = some (.file data)) :
    v.Yields (File.verifySize path data.length) (.ok ()) v.pathMap := by
  refine ⟨v, ?_, hv, rfl⟩
  simp [File.verifySize, runOn_size hv hpath, hnode]

/-- **Writing**: the new bytes stand in the place of the old ones. -/
theorem write_yields (hv : v.IsReady) (hpath : path ≠ "") (config : Config) (data : Bytes) :
    v.Yields (File.write path data config) ((v.pathMap.beforeWrite path).map fun _ => data.length)
      (v.pathMap.replace path (fun _ => data) data.length).2 := by
  refine Yields.requirePath hpath ?_
  have hwork : ∀ (v₁ : MemoryVolume) file old, v₁.Working file ⟨path, 0, .replacing⟩ old →
      v₁.Yields (do Operation.request (.truncate file data.length); File.writeAll file data)
        (.ok data.length) (v₁.pathMap.update path (some (.file data))) := by
    intro v₁ file old hworking
    obtain ⟨v₂, htruncate, hworking₂, hmap⟩ := hworking.truncate data.length
    obtain ⟨v₃, hrun, hv₃, hmap₃⟩ := hworking₂.writeAll rfl data
    refine ⟨v₃, ?_, hv₃, ?_⟩
    · simp [htruncate, hrun]
    · rw [hmap₃, hmap, PathMap.update_update]
      simp [OpenMode.replacing, overwrite_zero_of_length]
  have hfile := withFile_replace hv .replacing rfl hwork
  refine hfile.andThen ?_
  intro written v' hwritten hv' hmap
  by_cases hcheck : config.checksSize
  · have hnode : v'.pathMap path = some (.file data) := by
      cases hbefore : v.pathMap.beforeWrite path with
      | error e => simp [hbefore] at hwritten
      | ok old => rw [hmap, PathMap.replace_path hbefore]
    obtain ⟨v₂, hrun, hv₂, hkept⟩ := verifySize_yields hv' hpath hnode
    refine ⟨v₂, ?_, hv₂, hkept.trans hmap⟩
    simp [hcheck, hrun]
  · refine ⟨v', ?_, hv', hmap⟩
    simp [hcheck]

/-- Reading from an offset of a file that is there. -/
theorem withFile_read (hv : v.IsReady) {data : Bytes} (hnode : v.pathMap path = some (.file data))
    (offset : Nat) (buffer : Bytes) :
    v.Yields (File.withFile path .readOnly (File.readFrom offset buffer))
      (.ok (File.fill buffer ((data.drop offset).take buffer.length))) v.pathMap := by
  obtain ⟨file, v₁, hopen, hworking, hmap⟩ := open_file hv path .readOnly hnode
  refine Yields.withFile hopen ?_
  by_cases hoffset : offset = 0
  · subst hoffset
    obtain ⟨v₂, hread, hworking₂, hmap₂⟩ := hworking.read rfl buffer.length
    refine ⟨v₂, ?_, hworking₂.ready, hmap₂.trans hmap⟩
    simp [File.readFrom, hread, OpenMode.readOnly]
  · obtain ⟨v₂, hseek, hworking₂, hmap₂⟩ := hworking.seek offset
    obtain ⟨v₃, hread, hworking₃, hmap₃⟩ := hworking₂.read rfl buffer.length
    refine ⟨v₃, ?_, hworking₃.ready, hmap₃.trans (hmap₂.trans hmap)⟩
    simp [File.readFrom, hoffset, hseek, hread]

/-- What is read is a file, so the file is opened. -/
theorem runOn_read (hv : v.IsReady) (hpath : path ≠ "") {data : Bytes}
    (hnode : v.pathMap path = some (.file data)) (offset : Nat) (buffer : Bytes) :
    runOn backend (File.read path offset buffer) v =
      runOn backend (File.withFile path .readOnly (File.readFrom offset buffer)) v := by
  simp only [File.read, runOn_bind, runOn_requirePath, String.isEmpty_iff, hpath, if_false,
    runOn_requestOr]
  rw [stat_mounted hv.mounted, hnode]
  rfl

/-- Reading fills the front of the buffer, and leaves the map as it is. -/
theorem read_yields (hv : v.IsReady) (hpath : path ≠ "") (offset : Nat) (buffer : Bytes) :
    v.Yields (.filled <$> File.read path offset buffer) (v.pathMap.read path offset buffer)
      v.pathMap := by
  cases hnode : v.pathMap path with
  | none =>
    refine ⟨v, ?_, hv, rfl⟩
    simp [File.read, hpath, stat_mounted hv.mounted, hnode, PathMap.read]
  | some node =>
    cases node with
    | directory =>
      refine ⟨v, ?_, hv, rfl⟩
      simp [File.read, hpath, stat_mounted hv.mounted, hnode, PathMap.read, Node.toEntry,
        Entry.ofDirectory]
    | file data =>
      obtain ⟨v₂, hrun, hv₂, hkept⟩ := withFile_read hv hnode offset buffer
      refine ⟨v₂, ?_, hv₂, hkept⟩
      rw [runOn_map, runOn_read hv hpath hnode, hrun, fill_drop_take]
      simp only [PathMap.read, hnode]
      rfl

/-- What a removal answers is what the call answers, without a change. -/
theorem runOn_delete (hpath : path ≠ "") :
    runOn backend (File.delete path) v =
      ((backend.answer (.unlink path) v).1.mapError Error.storage,
        (backend.answer (.unlink path) v).2) := by
  simp [File.delete, hpath]

/-- Removing an entry makes its path free. -/
theorem delete_yields (hv : v.IsReady) (hpath : path ≠ "") :
    v.Yields ((fun _ => .done) <$> File.delete path) (v.pathMap.delete path).1
      (v.pathMap.delete path).2 := by
  -- Three things can happen to the call, and each is a case of the map machine.
  have hstep : ∃ v', v'.IsReady ∧ v'.pathMap = (v.pathMap.delete path).2 ∧
      ((backend.answer (.unlink path) v).1.mapError Error.storage).map (fun _ => Response.done) =
        (v.pathMap.delete path).1 ∧ (backend.answer (.unlink path) v).2 = v' := by
    cases hnode : v.pathMap path with
    | none =>
      obtain ⟨v', hunlink, hv', hmap⟩ := unlink_missing hv hnode
      rw [PathMap.delete_missing hnode, hunlink]
      exact ⟨v', hv', hmap, rfl, rfl⟩
    | some node =>
      by_cases hoccupied : node = .directory ∧ v.pathMap.Occupied path
      · obtain ⟨rfl, hoccupied⟩ := hoccupied
        obtain ⟨v', hunlink, hv', hmap⟩ := unlink_occupied hv hnode hoccupied
        rw [PathMap.delete_occupied hnode hoccupied, hunlink]
        exact ⟨v', hv', hmap, rfl, rfl⟩
      · have hfree : node = .directory → ¬v.pathMap.Occupied path := fun hdir hbelow =>
          hoccupied ⟨hdir, hbelow⟩
        obtain ⟨v', hunlink, hv', hmap⟩ := unlink_free hv hnode hfree
        rw [PathMap.delete_free hnode hfree, hunlink]
        exact ⟨v', hv', hmap, rfl, rfl⟩
  obtain ⟨v', hv', hmap, hanswer, hstate⟩ := hstep
  refine ⟨v', ?_, hv', hmap⟩
  rw [runOn_map, runOn_delete hpath, hanswer, hstate]

end Operations

/-! ### Runs -/

/-- The empty path is refused. -/
theorem runOn_operation_empty (config : Config) {request : FileRequest} (h : request.path = "") :
    runOn backend (request.operation config) v = (.error (.invalidInput "empty path"), v) := by
  cases request <;>
    simp only [FileRequest.path] at h <;> subst h <;>
    simp [FileRequest.operation, File.read, File.write, File.append, File.delete, File.size]

/-- **A request is answered as by the map machine.** -/
theorem serve_yields (hv : v.IsReady) (config : Config) (request : FileRequest) :
    v.Yields (request.operation config) (v.pathMap.serve request).1
      (v.pathMap.serve request).2 := by
  by_cases hpath : request.path = ""
  · refine ⟨v, ?_, hv, ?_⟩
    · simp only [runOn_operation_empty config hpath, PathMap.serve, if_pos hpath]
    · simp only [PathMap.serve, if_pos hpath]
  · cases request with
    | read path offset buffer =>
      simp only [PathMap.serve, if_neg hpath]
      exact read_yields hv hpath offset buffer
    | write path data =>
      simp only [PathMap.serve, if_neg hpath, PathMap.replace_fst]
      exact (write_yields hv hpath config data).map Response.number
    | append path data =>
      simp only [PathMap.serve, if_neg hpath, PathMap.replace_fst]
      exact (append_yields hv hpath data).map Response.number
    | delete path =>
      simp only [PathMap.serve, if_neg hpath]
      exact delete_yields hv hpath
    | size path =>
      simp only [PathMap.serve, if_neg hpath]
      exact size_yields hv hpath

/-- The answers of the volume to requests, one after the other, each with the map behind the volume
after it. Every request comes with the configuration that it is made with. -/
def trace (v : MemoryVolume) :
    List (Config × FileRequest) → List (Except Error Response × PathMap)
  | [] => []
  | (config, request) :: requests =>
    let (response, v) := runOn backend (request.operation config) v
    (response, v.pathMap) :: v.trace requests

/-- **The operations on single files refine the map machine.**  On a mounted volume without faults
every answer in a run of requests, and every state after one, is that of the map machine. -/
theorem trace_eq_pathMap (hmounted : v.mounted = true) (hfaults : v.faults = {})
    (requests : List (Config × FileRequest)) :
    v.trace requests = v.pathMap.trace (requests.map Prod.snd) := by
  have hv : v.IsReady := ⟨hmounted, hfaults⟩
  clear hmounted hfaults
  induction requests generalizing v with
  | nil => rfl
  | cons call requests ih =>
    obtain ⟨config, request⟩ := call
    obtain ⟨v', hrun, hv', hmap⟩ := serve_yields hv config request
    simp only [trace, hrun, List.map_cons, PathMap.trace]
    rw [ih hv', hmap]

/-- A run on a new volume: a file is made longer, read beyond its end, and cannot hold another. -/
theorem trace_eq_newMounted :
    (newMounted "/lfs").mounted = true ∧ (newMounted "/lfs").faults = {} ∧
      ((newMounted "/lfs").pathMap.trace
        [.write "/lfs/a" [1, 2], .append "/lfs/a" [3], .read "/lfs/a" 1 [0, 0, 0, 0],
          .write "/lfs/a/b" [4], .size "/lfs", .delete "/lfs/a", .size "/lfs/a"]).map (·.1) =
        [.ok (.number 2), .ok (.number 1), .ok (.filled ⟨2, [2, 3, 0, 0]⟩),
          .error (.notADirectory "/lfs/a"), .ok (.number 0), .ok .done,
          .error (.notFound "/lfs/a")] := by
  refine ⟨rfl, rfl, ?_⟩
  have hrun := trace_eq_pathMap (v := newMounted "/lfs") rfl rfl
    [({}, .write "/lfs/a" [1, 2]), ({}, .append "/lfs/a" [3]), ({}, .read "/lfs/a" 1 [0, 0, 0, 0]),
      ({}, .write "/lfs/a/b" [4]), ({}, .size "/lfs"), ({}, .delete "/lfs/a"),
      ({}, .size "/lfs/a")]
  simp only [List.map_cons, List.map_nil] at hrun
  rw [← hrun]
  decide

end MemoryVolume
end FlashVolume

import FlashVolume.Memory.Backend
import FlashVolume.Proofs.Memory.PathMap
import FlashVolume.Proofs.Storage.Running
/-!
# Calls on a volume without faults

What the calls that work on files answer on a mounted volume without faults, and what they do to
the map behind it. A volume `IsReady` if it is mounted and has no faults. `Working` says that a
handle is open and that there is a file at its path: the state between an `open` and its `close`.
Each lemma gives the answer of one call, and the state after it in these terms.
-/

namespace FlashVolume
namespace MemoryVolume

/-- The map behind a volume. -/
def pathMap (v : MemoryVolume) : PathMap :=
  fun path => v.nodes[path]?

/-- The volume is mounted and has no faults. -/
structure IsReady (v : MemoryVolume) : Prop where
  mounted : v.mounted = true
  faults : v.faults = {}

/-- A handle is open on a file with the given contents. -/
structure Working (v : MemoryVolume) (file : FileHandle) (f : OpenFile) (data : Bytes) : Prop where
  ready : v.IsReady
  record : v.files.get? file.index = some f
  node : v.nodes[f.path]? = some (.file data)

/-- Only the nodes count for the map: an entry is put in place. -/
theorem pathMap_insert {v v' : MemoryVolume} {path : String} {node : Node}
    (h : v'.nodes = v.nodes.insert path node) :
    v'.pathMap = v.pathMap.update path (some node) := by
  funext p
  by_cases hp : p = path
  · simp [PathMap.update, pathMap, h, hp]
  · simp [PathMap.update, pathMap, h, hp, Std.TreeMap.getElem?_insert, Ne.symm hp]

/-- Only the nodes count for the map: an entry is removed. -/
theorem pathMap_erase {v v' : MemoryVolume} {path : String} (h : v'.nodes = v.nodes.erase path) :
    v'.pathMap = v.pathMap.update path none := by
  funext p
  by_cases hp : p = path
  · simp [PathMap.update, pathMap, h, hp]
  · simp [PathMap.update, pathMap, h, hp, Std.TreeMap.getElem?_erase, Ne.symm hp]

/-- The contents of a path are those of a file that stands there. -/
theorem contents?_eq_some {v : MemoryVolume} {path : String} {data : Bytes} :
    v.contents? path = some data ↔ v.nodes[path]? = some (.file data) := by
  rw [contents?]
  cases v.nodes[path]? with
  | none => simp
  | some node => cases node <;> simp

/-- The data of an open file is what stands at its path. -/
theorem Working.contents {v : MemoryVolume} {file : FileHandle} {f : OpenFile} {data : Bytes}
    (h : v.Working file f data) : v.contents? f.path = some data :=
  contents?_eq_some.2 h.node

/-! ### Opening and closing -/

section Opening

variable {v : MemoryVolume} (hv : v.IsReady) (path : String) (mode : OpenMode)
include hv

/-- A file is opened at its start, or at its end for appending. -/
theorem open_file {data : Bytes} (h : v.nodes[path]? = some (.file data)) :
    ∃ file v', backend.answer (.open path mode) v = (.ok file, v') ∧
      v'.Working file ⟨path, if mode.append then data.length else 0, mode⟩ data ∧
      v'.pathMap = v.pathMap := by
  refine ⟨⟨v.files.next⟩, { v with files := v.files.add ⟨path, _, mode⟩ }, ?_,
    ⟨⟨hv.mounted, hv.faults⟩, Handles.get?_add_next _ _, h⟩, rfl⟩
  simp [backend, answer, MemoryVolume.open, whenMounted, hv.mounted, h, openAt]

/-- A directory is no file. -/
theorem open_directory (h : v.nodes[path]? = some .directory) :
    backend.answer (.open path mode) v = (.error (.isADirectory path), v) := by
  simp [backend, answer, MemoryVolume.open, whenMounted, hv.mounted, h]

/-- **Opening to write makes room,** as the map machine does: a file that is there is kept, and a
free path becomes an empty file. -/
theorem open_creating (hmode : mode.create = true) :
    match v.pathMap.beforeWrite path with
    | .ok data => ∃ file v', backend.answer (.open path mode) v = (.ok file, v') ∧
        v'.Working file ⟨path, if mode.append then data.length else 0, mode⟩ data ∧
        v'.pathMap = v.pathMap.update path (some (.file data))
    | .error e => ∃ e', backend.answer (.open path mode) v = (.error e', v) ∧
        Error.ofStorage e' = e := by
  rw [PathMap.beforeWrite, PathMap.holder_eq_parent]
  cases hnode : v.nodes[path]? with
  | some node =>
    cases node with
    | file data =>
      obtain ⟨file, v', hopen, hwork, hmap⟩ := open_file hv path mode hnode
      have hkept : v.pathMap.update path (some (.file data)) = v.pathMap :=
        PathMap.update_eq_self hnode
      simp only [show v.pathMap path = _ from hnode, hkept]
      exact ⟨file, v', hopen, hwork, hmap⟩
    | directory =>
      simp only [show v.pathMap path = _ from hnode]
      exact ⟨_, open_directory hv path mode hnode, rfl⟩
  | none =>
    simp only [show v.pathMap path = _ from hnode]
    cases hparent : v.nodes[Path.parent path]? with
    | none =>
      simp only [show v.pathMap (Path.parent path) = _ from hparent]
      refine ⟨.notFound (Path.parent path), ?_, rfl⟩
      simp [backend, answer, MemoryVolume.open, whenMounted, hv.mounted, hnode, hmode,
        checkParent, hparent]
    | some node =>
      cases node with
      | file data =>
        simp only [show v.pathMap (Path.parent path) = _ from hparent]
        refine ⟨.notADirectory (Path.parent path), ?_, rfl⟩
        simp [backend, answer, MemoryVolume.open, whenMounted, hv.mounted, hnode, hmode,
          checkParent, hparent]
      | directory =>
        simp only [show v.pathMap (Path.parent path) = _ from hparent]
        refine ⟨⟨v.files.next⟩,
          { v with
            nodes := v.nodes.insert path (.file [])
            files := v.files.add ⟨path, 0, mode⟩ }, ?_, ⟨⟨hv.mounted, hv.faults⟩, ?_, ?_⟩, ?_⟩
        · simp [backend, answer, MemoryVolume.open, whenMounted, hv.mounted, hnode, hmode,
            checkParent, hparent, openAt]
        · simp
        · simp
        · exact pathMap_insert rfl

omit path mode in
/-- Closing succeeds, and leaves the map as it is. -/
theorem close_ready (file : FileHandle) :
    ∃ v', backend.answer (.close file) v = (.ok (), v') ∧ v'.IsReady ∧ v'.pathMap = v.pathMap := by
  refine ⟨{ v with files := v.files.close file.index }, ?_, ⟨hv.mounted, hv.faults⟩, rfl⟩
  simp [backend, answer, MemoryVolume.close, hv.faults]

end Opening

/-! ### Working on an open file -/

namespace Working

variable {v : MemoryVolume} {file : FileHandle} {f : OpenFile} {data : Bytes}
  (h : v.Working file f data)
include h

/-- A read answers the bytes at the position, and moves behind them. -/
theorem read (hmode : f.mode.read = true) (length : Nat) :
    ∃ v', backend.answer (.read file length) v = (.ok ((data.drop f.position).take length), v') ∧
      v'.Working file { f with position := f.position + min length (data.length - f.position) }
        data ∧ v'.pathMap = v.pathMap := by
  refine ⟨{ v with
      files := v.files.set file.index
        { f with position := f.position + min length (data.length - f.position) } }, ?_,
    ⟨⟨h.ready.mounted, h.ready.faults⟩, Handles.get?_set_self h.record, h.node⟩, rfl⟩
  simp [backend, answer, MemoryVolume.read, h.record, hmode, h.contents, limited, h.ready.faults]

/-- A write puts the bytes at the position, or at the end of the file, and takes all of them. -/
theorem write (hmode : f.mode.write = true) (bytes : Bytes) :
    ∃ v', backend.answer (.write file bytes) v = (.ok bytes.length, v') ∧ v'.IsReady ∧
      v'.pathMap = v.pathMap.update f.path (some (.file
        (data.overwrite (if f.mode.append then data.length else f.position) bytes))) := by
  refine ⟨{ v with
      nodes := v.nodes.insert f.path (.file
        (data.overwrite (if f.mode.append then data.length else f.position) bytes))
      files := v.files.set file.index
        { f with
          position := (if f.mode.append then data.length else f.position) + bytes.length } },
    ?_, ⟨h.ready.mounted, h.ready.faults⟩, pathMap_insert rfl⟩
  simp [backend, answer, MemoryVolume.write, h.record, hmode, h.contents, limited, h.ready.faults]

/-- A seek moves to any offset. -/
theorem seek (offset : Nat) :
    ∃ v', backend.answer (.seek file offset) v = (.ok (), v') ∧
      v'.Working file { f with position := offset } data ∧ v'.pathMap = v.pathMap := by
  refine ⟨{ v with files := v.files.set file.index { f with position := offset } }, ?_,
    ⟨⟨h.ready.mounted, h.ready.faults⟩, Handles.get?_set_self h.record, h.node⟩, rfl⟩
  simp [backend, answer, MemoryVolume.seek, h.record]

/-- Truncating gives the file a length, and keeps the position. -/
theorem truncate (length : Nat) :
    ∃ v', backend.answer (.truncate file length) v = (.ok (), v') ∧
      v'.Working file f (data.resize length) ∧
      v'.pathMap = v.pathMap.update f.path (some (.file (data.resize length))) := by
  refine ⟨{ v with nodes := v.nodes.insert f.path (.file (data.resize length)) }, ?_,
    ⟨⟨h.ready.mounted, h.ready.faults⟩, h.record, ?_⟩, pathMap_insert rfl⟩
  · simp [backend, answer, MemoryVolume.truncate, h.record, h.contents]
  · simp

end Working

/-! ### Entries -/

/-- A mounted volume shows the node at a path under its last name. -/
theorem stat_mounted {v : MemoryVolume} (hmounted : v.mounted = true) (path : String) :
    backend.answer (.stat path) v =
      ((match v.pathMap path with
        | some node => .ok (node.toEntry (Path.fileName path))
        | none => .error (.notFound path)), v) := by
  simp only [backend, answer, stat, whenMounted, if_pos hmounted, pathMap]
  cases v.nodes[path]? <;> rfl

/-- The prefix test on the paths of the volume finds out whether something is below a directory. -/
theorem isOccupied_iff (v : MemoryVolume) (path : String) :
    v.isOccupied path = true ↔ v.pathMap.Occupied path := by
  simp only [isOccupied, List.any_eq_true, List.isPrefixOf_iff_prefix, Std.TreeMap.mem_keys,
    Std.TreeMap.mem_iff_isSome_getElem?, Option.isSome_iff_ne_none, PathMap.Occupied, pathMap]
  exact exists_congr fun p => and_comm

section Unlinking

variable {v : MemoryVolume} (hv : v.IsReady) {path : String}
include hv

/-- A free path is not found. -/
theorem unlink_missing (hnode : v.pathMap path = none) :
    ∃ v', backend.answer (.unlink path) v = (.error (.notFound path), v') ∧ v'.IsReady ∧
      v'.pathMap = v.pathMap := by
  have hnode : v.nodes[path]? = none := hnode
  refine ⟨{ v with counters := { v.counters with unlinks := v.counters.unlinks + 1 } }, ?_,
    ⟨hv.mounted, hv.faults⟩, rfl⟩
  simp [backend, answer, unlink, whenMounted, hv.mounted, hv.faults, hnode]

/-- A directory that holds something is not removed. -/
theorem unlink_occupied (hnode : v.pathMap path = some .directory)
    (hoccupied : v.pathMap.Occupied path) :
    ∃ v', backend.answer (.unlink path) v = (.error (.io (.bare .directoryNotEmpty)), v') ∧
      v'.IsReady ∧ v'.pathMap = v.pathMap := by
  have hnode : v.nodes[path]? = some .directory := hnode
  have hoccupied : v.isOccupied path = true := (isOccupied_iff v path).2 hoccupied
  rw [isOccupied] at hoccupied
  refine ⟨{ v with counters := { v.counters with unlinks := v.counters.unlinks + 1 } }, ?_,
    ⟨hv.mounted, hv.faults⟩, rfl⟩
  simp only [backend, answer, unlink, whenMounted, hv.mounted, hv.faults, hnode, isOccupied,
    hoccupied, if_true, reduceCtorEq, if_false]

/-- A file is removed, and so is a directory with nothing below it. -/
theorem unlink_free {node : Node} (hnode : v.pathMap path = some node)
    (hfree : node = .directory → ¬v.pathMap.Occupied path) :
    ∃ v', backend.answer (.unlink path) v = (.ok (), v') ∧ v'.IsReady ∧
      v'.pathMap = v.pathMap.update path none := by
  have hnode : v.nodes[path]? = some node := hnode
  refine ⟨{ v with
      nodes := v.nodes.erase path
      counters := { v.counters with unlinks := v.counters.unlinks + 1 } }, ?_,
    ⟨hv.mounted, hv.faults⟩, pathMap_erase rfl⟩
  cases node with
  | file data =>
    simp only [backend, answer, unlink, whenMounted, hv.mounted, hv.faults, hnode, if_true,
      reduceCtorEq, if_false]
  | directory =>
    have hempty : ¬v.isOccupied path = true := mt (isOccupied_iff v path).1 (hfree rfl)
    rw [isOccupied] at hempty
    simp only [backend, answer, unlink, whenMounted, hv.mounted, hv.faults, hnode, isOccupied,
      hempty, if_true, reduceCtorEq, if_false, Bool.false_eq_true]

end Unlinking

end MemoryVolume
end FlashVolume

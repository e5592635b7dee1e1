import FlashVolume.Memory.Volume
import FlashVolume.Proofs.Path.Parent
import FlashVolume.Proofs.Request
/-!
# The map behind a volume

To a caller a volume is a map from paths to files and directories. This module says what the
operations on a single file do to that map, without handles, positions or storage calls.

| request | succeeds on | and then |
| --- | --- | --- |
| `write` | a file, or a free path whose holder is a directory | the path has the data |
| `append` | the same | the path has its old contents and the data behind them |
| `read` | a file | the front of the buffer has the bytes behind the offset |
| `size` | a file or a directory | |
| `delete` | a file, or a directory with nothing below it | the path is free |

A request that fails leaves the map as it was.
-/

namespace FlashVolume

/-- What is at each path. -/
abbrev PathMap := String → Option Node

namespace PathMap

/-- The map with another entry at one path. -/
def update (m : PathMap) (path : String) (node : Option Node) : PathMap :=
  fun p => if p = path then node else m p

/-- An updated path holds what it was given. -/
@[simp] theorem update_self (m : PathMap) (path : String) (node : Option Node) :
    m.update path node path = node :=
  if_pos rfl

/-- The later of two entries at a path counts. -/
@[simp] theorem update_update (m : PathMap) (path : String) (a b : Option Node) :
    (m.update path a).update path b = m.update path b := by
  funext p
  by_cases hp : p = path <;> simp [update, hp]

/-- Putting the entry in place that is there changes nothing. -/
theorem update_eq_self {m : PathMap} {path : String} {node : Option Node} (h : m path = node) :
    m.update path node = m := by
  funext p
  by_cases hp : p = path <;> simp [update, hp, h]

/-- The path of the directory that holds an entry: the text before the last separator, or the
separator if nothing stands before it. -/
def holder (path : String) : String :=
  match (path.toList.splitOn '/').dropLast with
  | [] => ""
  | [[]] => "/"
  | pieces => String.ofList (['/'].intercalate pieces)

/-- The holder of a path is its parent. -/
theorem holder_eq_parent (path : String) : holder path = Path.parent path := by
  rw [holder, Path.parent]
  rcases Path.notMem_or_exists_append path.toList with hsep | ⟨dir, name, hname, hpath⟩
  · rw [List.splitOn_eq_singleton hsep, Path.parentChars_of_notMem hsep]
    rfl
  · rw [hpath, List.splitOn_append_cons_self, List.splitOn_eq_singleton hname,
      List.dropLast_concat, Path.parentChars_append hname]
    have hdir : ['/'].intercalate (dir.splitOn '/') = dir := List.intercalate_splitOn '/'
    split
    · rename_i h
      exact absurd h (List.splitOn_ne_nil _ _)
    · rename_i h
      rw [h] at hdir
      subst hdir
      rfl
    · rename_i h
      have hne : dir ≠ [] := by
        rintro rfl
        exact h rfl
      rw [hdir, if_neg hne]

/-- The contents that a file has before it is written to, or why it cannot be. -/
def beforeWrite (path : String) (m : PathMap) : Except Error Bytes :=
  match m path with
  | some (.file data) => .ok data
  | some .directory => .error (.isADirectory path)
  | none =>
    match m (holder path) with
    | some .directory => .ok []
    | some (.file _) => .error (.notADirectory (holder path))
    | none => .error (.notFound (holder path))

/-- A file that is there can be written to, and a free path in a directory. -/
theorem beforeWrite_eq_ok {path : String} {m : PathMap} {data : Bytes} :
    m.beforeWrite path = .ok data ↔ m path = some (.file data) ∨
      m path = none ∧ m (Path.parent path) = some .directory ∧ data = [] := by
  rw [beforeWrite, holder_eq_parent]
  cases m path with
  | some node => cases node <;> simp
  | none =>
    cases m (Path.parent path) with
    | some node => cases node <;> simp [eq_comm]
    | none => simp

/-- Gives a file new contents, made from the old ones, and answers `count`. -/
def replace (path : String) (change : Bytes → Bytes) (count : Nat) (m : PathMap) :
    Except Error Response × PathMap :=
  match m.beforeWrite path with
  | .ok data => (.ok (.number count), m.update path (some (.file (change data))))
  | .error e => (.error e, m)

/-- What giving a file new contents answers does not depend on them. -/
theorem replace_fst (path : String) (change : Bytes → Bytes) (count : Nat) (m : PathMap) :
    (m.replace path change count).1 =
      ((m.beforeWrite path).map fun _ => count).map Response.number := by
  rw [replace]
  cases m.beforeWrite path <;> rfl

/-- The contents are made from the old ones, if there can be any. -/
theorem replace_of_ok {path : String} {change : Bytes → Bytes} {count : Nat} {m : PathMap}
    {old : Bytes} (h : m.beforeWrite path = .ok old) :
    (m.replace path change count).2 = m.update path (some (.file (change old))) := by
  rw [replace, h]

/-- A file that has been given new contents has them. -/
theorem replace_path {path : String} {change : Bytes → Bytes} {count : Nat} {m : PathMap}
    {old : Bytes} (h : m.beforeWrite path = .ok old) :
    (m.replace path change count).2 path = some (.file (change old)) := by
  rw [replace_of_ok h, update_self]

/-- What reading a file from an offset leaves in a buffer. -/
def read (path : String) (offset : Nat) (buffer : Bytes) (m : PathMap) :
    Except Error Response :=
  match m path with
  | some (.file data) =>
    let n := min buffer.length (data.length - offset)
    .ok (.filled ⟨n, (data.drop offset).take n ++ buffer.drop n⟩)
  | some .directory => .error (.isADirectory path)
  | none => .error (.notFound path)

/-- The size of an entry. -/
def size (path : String) (m : PathMap) : Except Error Response :=
  match m path with
  | some (.file data) => .ok (.number data.length)
  | some .directory => .ok (.number 0)
  | none => .error (.notFound path)

/-- Something is below a directory. -/
def Occupied (path : String) (m : PathMap) : Prop :=
  ∃ p, (path ++ "/").toList <+: p.toList ∧ m p ≠ none

open Classical in
/-- Removes an entry. -/
noncomputable def delete (path : String) (m : PathMap) : Except Error Response × PathMap :=
  match m path with
  | none => (.error (.storage (.notFound path)), m)
  | some .directory =>
    if m.Occupied path then (.error (.storage (.io (.bare .directoryNotEmpty))), m)
    else (.ok .done, m.update path none)
  | some (.file _) => (.ok .done, m.update path none)

/-- Nothing is removed from a free path. -/
theorem delete_missing {path : String} {m : PathMap} (h : m path = none) :
    m.delete path = (.error (.storage (.notFound path)), m) := by
  simp only [delete, h]

/-- Nothing is removed from an occupied directory. -/
theorem delete_occupied {path : String} {m : PathMap} (h : m path = some .directory)
    (hoccupied : m.Occupied path) :
    m.delete path = (.error (.storage (.io (.bare .directoryNotEmpty))), m) := by
  simp only [delete, h, if_pos hoccupied]

/-- Anything else is removed. -/
theorem delete_free {path : String} {m : PathMap} {node : Node} (h : m path = some node)
    (hfree : node = .directory → ¬m.Occupied path) :
    m.delete path = (.ok .done, m.update path none) := by
  cases node with
  | file data => simp only [delete, h]
  | directory => simp only [delete, h, if_neg (hfree rfl)]

/-- **The map machine.**  What a request is answered with, and the map after it. -/
noncomputable def serve (m : PathMap) (request : FileRequest) : Except Error Response × PathMap :=
  if request.path = "" then (.error (.invalidInput "empty path"), m)
  else
    match request with
    | .read path offset buffer => (m.read path offset buffer, m)
    | .write path data => m.replace path (fun _ => data) data.length
    | .append path data => m.replace path (fun old => old ++ data) data.length
    | .delete path => m.delete path
    | .size path => (m.size path, m)

/-- The answers to requests, one after the other, each with the map after it. -/
noncomputable def trace (m : PathMap) : List FileRequest → List (Except Error Response × PathMap)
  | [] => []
  | request :: requests => m.serve request :: (m.serve request).2.trace requests

end PathMap
end FlashVolume

import FlashVolume.Host.System
import FlashVolume.Path.Basic
import FlashVolume.Storage.Backend
import FlashVolume.Text.Search
/-!
# Volumes on the host

Section 10.2 of the specification: the backend on a directory of the host, with `real_path`.

A volume whose mount point stands for a directory of the host, its *root*. `realPath` takes a path
of the volume to the host: what follows the mount point is cut at separators, empty segments and
`.` are dropped, and the rest are names below the root. A path is refused if it does not start at
the mount point, if a second separator follows the first, or if it has a segment `..`, so nothing
outside the root is ever named.
-/

namespace FlashVolume

/-- A volume on the host. -/
structure HostVolume where
  mountPoint : String
  root : HostPath
  mounted : Bool := false
  system : HostSystem

namespace HostVolume

/-- What a call answers, and the volume after it. -/
abbrev Answer (α : Type) := Except StorageError α × HostVolume

/-- The names that follow the mount point and a separator; `none` if they leave the root. -/
def names? (relative : String) : Option (List String) :=
  let segments := HostPath.splitSeparators relative
  if relative.toList.head? = some '/' ∨ ".." ∈ segments then none
  else some (segments.filter fun segment => segment ≠ "" ∧ segment ≠ ".")

/-- The path on the host that a path of the volume stands for, if it stands for one. -/
def hostPath? (v : HostVolume) (path : String) : Option HostPath :=
  if path = v.mountPoint then some v.root
  else do
    let rest ← Text.stripStem? v.mountPoint path
    let relative ← Text.stripStem? "/" rest
    let names ← names? relative
    some (v.root.pushAll names)

/-- The path on the host that a path of the mounted volume stands for. -/
def realPath (v : HostVolume) (path : String) : Except StorageError HostPath :=
  if v.mounted then
    match v.hostPath? path with
    | some real => .ok real
    | none => .error (.invalidPath path)
  else .error .notMounted

/-- Makes a call of the host, with its failure as an error of the volume. -/
def onHost {α : Type} (v : HostVolume) (call : HostSystem → HostSystem.Answer α) : Answer α :=
  let (result, system) := call v.system
  (result.mapError StorageError.ofSystem, { v with system := system })

/-- Makes a call of the host on the path that a path of the volume stands for. -/
def onPath {α : Type} (v : HostVolume) (path : String) (call : HostPath → HostVolume → Answer α) :
    Answer α :=
  match v.realPath path with
  | .error e => (.error e, v)
  | .ok real => call real v

/-- Mounts the volume; the root and the directories on the way to it are created. -/
def mount (v : HostVolume) : Answer Unit :=
  match v.onHost (HostSystem.createDirectories v.root) with
  | (.error e, v) => (.error e, v)
  | (.ok (), v) =>
    if v.system.isDirectory v.root then (.ok (), { v with mounted := true })
    else (.error (.notADirectory v.root.toText), v)

/-- The numbers of the volume. They are the host's own. -/
def statvfs (path : String) (v : HostVolume) : Answer VolumeStats :=
  v.onPath path fun real v =>
    if real.hasNul then (.error (.ofSystem (.os Errno.invalidArgument)), v)
    else v.onHost fun h => ((h.find real).map fun (location, _) => h.traits.volumeStats location, h)

/-- Opens a file. -/
def «open» (path : String) (mode : OpenMode) (v : HostVolume) : Answer FileHandle :=
  v.onPath path fun real v =>
    if v.system.isDirectory real then (.error (.isADirectory path), v)
    else
      let (result, v) := v.onHost (HostSystem.openFile real mode)
      (result.map FileHandle.mk, v)

/-- The entry at a path. -/
def stat (path : String) (v : HostVolume) : Answer Entry :=
  v.onPath path fun real v =>
    v.onHost fun h => ((h.lookup real).map (h.entry (Path.fileName path)), h)

/-- Opens a directory. -/
def opendir (path : String) (v : HostVolume) : Answer DirHandle :=
  v.onPath path fun real v =>
    if v.system.isFile real then (.error (.notADirectory path), v)
    else
      let (result, v) := v.onHost (HostSystem.openDirectory real)
      (result.map DirHandle.mk, v)

/-- Creates a directory. -/
def mkdir (path : String) (v : HostVolume) : Answer Unit :=
  v.onPath path fun real v => v.onHost (HostSystem.createDirectory real)

/-- Removes a file, or a directory that is empty. -/
def unlink (path : String) (v : HostVolume) : Answer Unit :=
  v.onPath path fun real v =>
    if v.system.isDirectory real then v.onHost (HostSystem.removeDirectory real)
    else v.onHost (HostSystem.removeFile real)

/-- The answer to a call. -/
def answer {α : Type} : Call α → HostVolume → Except StorageError α × HostVolume
  | .mount, v => v.mount
  | .statvfs path, v => v.statvfs path
  | .open path mode, v => v.open path mode
  | .read file length, v => v.onHost (HostSystem.readFile file.index length)
  | .write file data, v => v.onHost (HostSystem.writeFile file.index data)
  | .seek file offset, v => v.onHost (HostSystem.seekFile file.index offset)
  | .truncate file length, v => v.onHost (HostSystem.truncateFile file.index length)
  | .close file, v => v.onHost (HostSystem.closeFile file.index)
  | .stat path, v => v.stat path
  | .opendir path, v => v.opendir path
  | .readdir dir, v => v.onHost (HostSystem.nextEntry dir.index)
  | .closedir dir, v => v.onHost (HostSystem.closeDirectory dir.index)
  | .mkdir path, v => v.mkdir path
  | .unlink path, v => v.unlink path

/-- The number of entries that an open directory has yet to deliver. -/
def entriesLeft (dir : DirHandle) (v : HostVolume) : Nat :=
  match v.system.directories.get? dir.index with
  | some d => (v.system.namesLeft d).length
  | none => 0

/-- An entry that the host delivers is one less to come. -/
theorem nextEntry_entriesLeft_lt {dir : Nat} {h h' : HostSystem} {entry : Entry}
    (hnext : HostSystem.nextEntry dir h = (.ok entry, h')) (hend : entry.isEnd = false) :
    ∃ d d', h.directories.get? dir = some d ∧ h'.directories.get? dir = some d' ∧
      (h'.namesLeft d').length < (h.namesLeft d).length := by
  unfold HostSystem.nextEntry at hnext
  split at hnext
  · cases hnext
  · rename_i d hd
    split at hnext
    · cases hnext
      cases hend
    · rename_i name rest hrest
      split at hnext
      · cases hnext
        refine ⟨d, { d with names := some rest }, hd, Handles.get?_set_self hd, ?_⟩
        rw [hrest]
        simp [HostSystem.namesLeft]
      · cases hnext

/-- A volume on the host, as a backend. -/
def backend : Backend HostVolume where
  answer := answer
  entriesLeft := entriesLeft
  entriesLeft_lt := by
    intro dir v v' entry h hend
    simp only [answer, onHost, Prod.mk.injEq] at h
    obtain ⟨hresult, rfl⟩ := h
    have hnext : HostSystem.nextEntry dir.index v.system =
        (.ok entry, (HostSystem.nextEntry dir.index v.system).2) := by
      refine Prod.ext ?_ rfl
      cases hr : (HostSystem.nextEntry dir.index v.system).1 with
      | error e => rw [hr] at hresult; cases hresult
      | ok e => rw [hr] at hresult; cases hresult; rfl
    obtain ⟨d, d', hd, hd', hlt⟩ := nextEntry_entriesLeft_lt hnext hend
    simpa [entriesLeft, hd, hd'] using hlt

/-- The path below the root that a path names, mounted or not: what follows the mount point, or
the whole path if it does not start there. -/
def placePath (v : HostVolume) (path : String) : HostPath :=
  v.root.pushAll (HostPath.ofText ((Text.stripStem? v.mountPoint path).getD path)).parts

/-- Puts a file in place below the root, with the directories on the way to it. -/
def insertFile (path : String) (data : Bytes) (v : HostVolume) : HostVolume :=
  { v with system := v.system.placeFile (v.placePath path) data }

end HostVolume
end FlashVolume

import FlashVolume.Memory.Volume
/-!
# Calls on a volume in memory

Section 10.2 of the specification: the calls of section 6 on the backend in memory.

What each storage call answers and what it does to the volume. Calls that name a path need a
mounted volume; calls that name a handle do not.

| call | answer |
| --- | --- |
| `open` | a directory is refused, a missing file is created below a directory if the mode says so |
| `read` | the bytes at the position, at most as many as asked for, none behind the end |
| `write` | at the position, or at the end when appending; a gap before it is filled with zeros |
| `truncate` | the file is cut or filled with zeros |
| `readdir` | the next entry in the order of paths |
| `unlink` | a directory with anything below it is refused |

A file that is unlinked while it is open is not found by calls that name its handle, and one that
is put at its path later is found instead.

A file has any length here. No machine holds one of more than `Word.maxSigned64` bytes: it stops in
a `write` that would end behind that and in a `truncate` beyond it, and what is stated of such a
call is stated of a machine that goes on.
-/

namespace FlashVolume
namespace MemoryVolume

/-- What a call answers, and the volume after it. -/
abbrev Answer (α : Type) := Except StorageError α × MemoryVolume

/-- A failure that was switched on. -/
def injected (text : String) : StorageError :=
  .io (.text .other text)

/-- A call that the mode of the handle does not allow. -/
def denied : StorageError :=
  .io (.bare .permissionDenied)

/-- A call with a handle that is not open. -/
def badHandle : StorageError :=
  .io (.os Errno.badDescriptor)

/-- Makes a call on a mounted volume. -/
def whenMounted {α : Type} (v : MemoryVolume) (answer : Answer α) : Answer α :=
  if v.mounted then answer else (.error .notMounted, v)

/-- Refuses a path whose parent is not a directory. -/
def checkParent (path : String) (v : MemoryVolume) : Except StorageError Unit :=
  let parent := Path.parent path
  match v.nodes[parent]? with
  | some .directory => .ok ()
  | some (.file _) => .error (.notADirectory parent)
  | none => .error (.notFound parent)

/-- Mounts the volume. -/
def mount (v : MemoryVolume) : Answer Unit :=
  if v.faults.failMounts > 0 then
    (.error (injected "injected mount failure"),
      { v with faults := { v.faults with failMounts := v.faults.failMounts - 1 } })
  else
    (.ok (), { v with
      mounted := true
      counters := { v.counters with mounts := v.counters.mounts + 1 } })

/-- The numbers of the volume. -/
def statvfs (v : MemoryVolume) : Answer VolumeStats :=
  v.whenMounted (.ok ⟨blockSize, blockSize, capacity - v.usedBlocks⟩, v)

/-- Gives out a handle for a file. -/
def openAt (path : String) (position : Nat) (mode : OpenMode) (v : MemoryVolume) :
    Answer FileHandle :=
  (.ok ⟨v.files.next⟩, { v with files := v.files.add ⟨path, position, mode⟩ })

/-- Opens a file. -/
def «open» (path : String) (mode : OpenMode) (v : MemoryVolume) : Answer FileHandle :=
  v.whenMounted <|
    match v.nodes[path]? with
    | some .directory => (.error (.isADirectory path), v)
    | some (.file data) => v.openAt path (if mode.append then data.length else 0) mode
    | none =>
      if mode.create then
        match v.checkParent path with
        | .error e => (.error e, v)
        | .ok () =>
          MemoryVolume.openAt path 0 mode { v with nodes := v.nodes.insert path (.file []) }
      else (.error (.notFound path), v)

/-- The lesser of a number and a limit, where there is one. -/
def limited (n : Nat) (limit : Option Nat) : Nat :=
  limit.elim n (min n ·)

/-- Reads from an open file. -/
def read (file : FileHandle) (length : Nat) (v : MemoryVolume) : Answer Bytes :=
  match v.files.get? file.index with
  | none => (.error badHandle, v)
  | some f =>
    if !f.mode.read then (.error denied, v)
    else
      match v.contents? f.path with
      | none => (.error (.notFound f.path), v)
      | some data =>
        let bytes := (data.drop f.position).take (limited length v.faults.readLimit)
        (.ok bytes, { v with
          files := v.files.set file.index { f with position := f.position + bytes.length } })

/-- Writes to an open file. -/
def write (file : FileHandle) (bytes : Bytes) (v : MemoryVolume) : Answer Nat :=
  match v.files.get? file.index with
  | none => (.error badHandle, v)
  | some f =>
    if !f.mode.write then (.error denied, v)
    else
      match v.contents? f.path with
      | none => (.error (.notFound f.path), v)
      | some data =>
        let accepted := limited bytes.length v.faults.writeLimit
        let stored := limited accepted v.faults.silentWriteLimit
        let position := if f.mode.append then data.length else f.position
        let written := Bytes.overwrite data position (bytes.take stored)
        let kept := if stored < accepted then written.take (position + stored) else written
        (.ok accepted, { v with
          nodes := v.nodes.insert f.path (.file kept)
          files := v.files.set file.index { f with position := position + accepted } })

/-- Goes to an offset of an open file. -/
def seek (file : FileHandle) (offset : Nat) (v : MemoryVolume) : Answer Unit :=
  match v.files.get? file.index with
  | none => (.error badHandle, v)
  | some f => (.ok (), { v with files := v.files.set file.index { f with position := offset } })

/-- Changes the length of an open file. -/
def truncate (file : FileHandle) (length : Nat) (v : MemoryVolume) : Answer Unit :=
  match v.files.get? file.index with
  | none => (.error badHandle, v)
  | some f =>
    match v.contents? f.path with
    | none => (.error (.notFound f.path), v)
    | some data =>
      (.ok (), { v with nodes := v.nodes.insert f.path (.file (Bytes.resize data length)) })

/-- Closes a file. -/
def close (file : FileHandle) (v : MemoryVolume) : Answer Unit :=
  (if v.faults.failClose then .error (injected "injected close failure") else .ok (),
    { v with files := v.files.close file.index })

/-- The entry at a path. -/
def stat (path : String) (v : MemoryVolume) : Answer Entry :=
  v.whenMounted <|
    match v.nodes[path]? with
    | some node => (.ok (node.toEntry (Path.fileName path)), v)
    | none => (.error (.notFound path), v)

/-- The volume after an `opendir` has been counted, without the entry that this call removes. -/
def beforeOpendir (v : MemoryVolume) : MemoryVolume :=
  let call := v.counters.opendirs + 1
  { v with
    counters := { v.counters with opendirs := call }
    nodes :=
      match v.faults.removeOnOpendir with
      | some (nth, victim) => if nth = call then v.nodes.erase victim else v.nodes
      | none => v.nodes }

/-- Opens a directory. -/
def opendir (path : String) (v : MemoryVolume) : Answer DirHandle :=
  v.whenMounted <|
    let v := v.beforeOpendir
    match v.nodes[path]? with
    | some .directory =>
      (.ok ⟨v.directories.next⟩, { v with directories := v.directories.add ⟨path, none⟩ })
    | some (.file _) => (.error (.notADirectory path), v)
    | none => (.error (.notFound path), v)

/-- The volume after a `readdir` has been counted. -/
def beforeReaddir (v : MemoryVolume) : MemoryVolume :=
  { v with counters := { v.counters with readdirs := v.counters.readdirs + 1 } }

/-- The next entry of an open directory. -/
def readdir (dir : DirHandle) (v : MemoryVolume) : Answer Entry :=
  let v := v.beforeReaddir
  if v.faults.failReaddirAt = some v.counters.readdirs then
    (.error (injected "injected readdir failure"), v)
  else
    match v.directories.get? dir.index with
    | none => (.error badHandle, v)
    | some d =>
      match v.childrenAfter d with
      | [] => (.ok .endMark, v)
      | (path, entry) :: _ =>
        (.ok entry, { v with
          directories := v.directories.set dir.index { d with last := some path } })

/-- Closes a directory. -/
def closedir (dir : DirHandle) (v : MemoryVolume) : Answer Unit :=
  (.ok (), { v with directories := v.directories.close dir.index })

/-- Creates a directory. -/
def mkdir (path : String) (v : MemoryVolume) : Answer Unit :=
  v.whenMounted <|
    if v.nodes.contains path then (.error (.alreadyExists path), v)
    else
      match v.checkParent path with
      | .error e => (.error e, v)
      | .ok () =>
        (.ok (), { v with
          nodes := v.nodes.insert path .directory
          counters := { v.counters with mkdirs := v.counters.mkdirs + 1 } })

/-- Whether anything is below a directory. -/
def isOccupied (path : String) (v : MemoryVolume) : Bool :=
  v.nodes.keys.any fun key => (path ++ "/").toList.isPrefixOf key.toList

/-- Removes an entry. -/
def unlink (path : String) (v : MemoryVolume) : Answer Unit :=
  v.whenMounted <|
    let v := { v with counters := { v.counters with unlinks := v.counters.unlinks + 1 } }
    if v.faults.failUnlinkAt = some v.counters.unlinks then
      (.error (injected "injected unlink failure"), v)
    else
      match v.nodes[path]? with
      | none => (.error (.notFound path), v)
      | some .directory =>
        if v.isOccupied path then (.error (.io (.bare .directoryNotEmpty)), v)
        else (.ok (), { v with nodes := v.nodes.erase path })
      | some (.file _) => (.ok (), { v with nodes := v.nodes.erase path })

end MemoryVolume
end FlashVolume

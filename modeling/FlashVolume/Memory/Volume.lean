import FlashVolume.Path.Basic
import FlashVolume.Storage.Handles
import FlashVolume.Storage.Program
import FlashVolume.Text.Search
import Std.Data.TreeMap
/-!
# Volumes in memory

Section 10.2 of the specification: the backend in memory, with the faults that can be injected.

A volume in memory is a map from paths to files and directories, in the order of the paths. A new
volume has two directories, `/` and the mount point; a path is nothing but its text, so `/a` and
`/a/` are two entries.

`Faults` are failures that are switched on from outside: calls that fail at a given time, writes
and reads that transfer less than they are asked to, and an entry that disappears while its
directory is being looked at.
-/

namespace FlashVolume

/-- What a path of the volume is. -/
inductive Node where
  | file (data : Bytes)
  | directory
deriving DecidableEq, Repr, Inhabited

/-- The entry of a node. -/
def Node.toEntry (name : String) : Node → Entry
  | file data => .ofFile name data.length
  | directory => .ofDirectory name

/-- An entry has the name that it is listed under. -/
@[simp] theorem Node.toEntry_name (name : String) (node : Node) :
    (node.toEntry name).name = name := by
  cases node <;> rfl

/-- Failures that are switched on. Calls are counted from when the faults were set, starting
at 1. -/
structure Faults where
  /-- The number of coming mounts that fail. -/
  failMounts : Nat := 0
  /-- The `unlink` that fails. -/
  failUnlinkAt : Option Nat := none
  /-- The most bytes that a write takes. -/
  writeLimit : Option Nat := none
  /-- The most bytes that a write keeps of those it takes; what follows them is lost. -/
  silentWriteLimit : Option Nat := none
  /-- The most bytes that a read answers. -/
  readLimit : Option Nat := none
  /-- Every close fails, after the handle has been taken back. -/
  failClose : Bool := false
  /-- The `opendir` that finds an entry gone, and that entry. -/
  removeOnOpendir : Option (Nat × String) := none
  /-- The `readdir` that fails. -/
  failReaddirAt : Option Nat := none
deriving DecidableEq, Repr, Inhabited

/-- How often calls have been made: `mounts` and `mkdirs` count those that succeeded, since the
volume is there, the others count all since the faults were set. -/
structure Counters where
  mounts : Nat := 0
  mkdirs : Nat := 0
  unlinks : Nat := 0
  opendirs : Nat := 0
  readdirs : Nat := 0
deriving DecidableEq, Repr, Inhabited

/-- An open file: the next byte to be read or written, unless the file is appended to. -/
structure OpenFile where
  path : String
  position : Nat
  mode : OpenMode
deriving DecidableEq, Repr, Inhabited

/-- An open directory: the enumeration goes on behind the path `last`. -/
structure OpenDirectory where
  path : String
  last : Option String := none
deriving DecidableEq, Repr, Inhabited

/-- A volume in memory. -/
structure MemoryVolume where
  mountPoint : String
  mounted : Bool
  nodes : Std.TreeMap String Node
  faults : Faults := {}
  counters : Counters := {}
  files : Handles OpenFile := {}
  directories : Handles OpenDirectory := {}

namespace MemoryVolume

/-- A new volume, not mounted. -/
def new (mountPoint : String) : MemoryVolume where
  mountPoint := mountPoint
  mounted := false
  nodes := (Std.TreeMap.empty.insert "/" .directory).insert mountPoint .directory

/-- A new volume that is mounted. -/
def newMounted (mountPoint : String) : MemoryVolume :=
  { new mountPoint with mounted := true }

/-- Switches faults on, and counts calls from now. -/
def setFaults (faults : Faults) (v : MemoryVolume) : MemoryVolume :=
  { v with
    faults := faults
    counters := { v.counters with unlinks := 0, opendirs := 0, readdirs := 0 } }

/-- Switches all faults off. -/
def clearFaults (v : MemoryVolume) : MemoryVolume :=
  v.setFaults {}

/-- The contents of a file. -/
def contents? (path : String) (v : MemoryVolume) : Option Bytes :=
  match v.nodes[path]? with
  | some (.file data) => some data
  | _ => none

/-- Whether there is an entry at the path. -/
def contains (path : String) (v : MemoryVolume) : Bool :=
  v.nodes.contains path

/-- Whether there is a directory at the path. -/
def isDirectory (path : String) (v : MemoryVolume) : Bool :=
  v.nodes[path]? = some .directory

/-- Creates the directories that are missing on the way to a path, from the inmost outwards, for
at most `fuel` steps; a path has no more stages than characters. -/
def insertParents (fuel : Nat) (path : String) (v : MemoryVolume) : MemoryVolume :=
  match fuel with
  | 0 => v
  | fuel + 1 =>
    let parent := Path.parent path
    if parent.isEmpty ∨ parent = "/" ∨ v.nodes.contains parent then v
    else insertParents fuel parent { v with nodes := v.nodes.insert parent .directory }

/-- Puts a file in place, with the directories on the way to it. -/
def insertFile (path : String) (data : Bytes) (v : MemoryVolume) : MemoryVolume :=
  let v := v.insertParents (path.length + 1) path
  { v with nodes := v.nodes.insert path (.file data) }

/-- The number of bytes in a block. -/
def blockSize : Nat := 4096

/-- The number of blocks of a volume. -/
def capacity : Nat := 256

/-- The blocks that a node takes. -/
def blocks : Node → Nat
  | .file data => (data.length + blockSize - 1) / blockSize
  | .directory => 1

/-- The blocks in use. -/
def usedBlocks (v : MemoryVolume) : Nat :=
  v.nodes.foldl (fun n _ node => n + blocks node) 0

/-- The name under which a path is an entry of a directory. -/
def childName? (dir path : String) : Option String :=
  (Text.stripStem? (Path.below dir) path).filter fun name => name ≠ "" ∧ '/' ∉ name.toList

/-- The paths that start with a text, in the order of paths: those from the text on, for as long as
they start with it. -/
def startingWith (stem : String) (v : MemoryVolume) : List (String × Node) :=
  (v.nodes.toList.dropWhile fun (path, _) => (compare path stem).isLT).takeWhile fun (path, _) =>
    stem.toList.isPrefixOf path.toList

/-- The entries of a directory, by path, in the order of paths. -/
def children (dir : String) (v : MemoryVolume) : List (String × Entry) :=
  (v.startingWith (Path.below dir)).filterMap fun (path, node) =>
    (childName? dir path).map fun name => (path, node.toEntry name)

/-- Whether a path comes behind the last one delivered, if one has been. -/
def isAfter (last : Option String) (path : String) : Bool :=
  last.all fun l => (compare l path).isLT

/-- What comes behind a path that comes behind the last one comes behind the last one. -/
theorem isAfter_trans {last : Option String} {p q : String} (hp : isAfter last p)
    (hq : isAfter (some p) q) : isAfter last q := by
  cases last with
  | none => rfl
  | some l =>
    simp only [isAfter, Option.all_some, Ordering.isLT_iff_eq_lt] at hp hq ⊢
    exact Std.TransCmp.lt_trans hp hq

/-- No path comes behind itself. -/
theorem isAfter_irrefl (path : String) : isAfter (some path) path = false := by
  simp [isAfter, Std.ReflCmp.compare_self]

/-- The entries that an open directory has yet to deliver. -/
def childrenAfter (dir : OpenDirectory) (v : MemoryVolume) : List (String × Entry) :=
  (v.children dir.path).filter fun child => isAfter dir.last child.1

end MemoryVolume
end FlashVolume

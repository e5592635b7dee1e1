import FlashVolume.Error.Storage
import FlashVolume.Host.Path
import FlashVolume.Storage.Entry
import FlashVolume.Storage.Handles
import FlashVolume.Word
import Std.Data.TreeMap
/-!
# The host

A POSIX file tree without symbolic links, used by a process with all rights. An entry has a
*location*: the names that lead to it from the root of the tree. A file is a number that its
contents are kept under, so an open file stays readable and writable when its entry is removed.
A directory has a number too, which tells it from one that is created at its location later: an
open directory whose entry is removed has no entries any more.

A path is walked part by part. Each part needs a directory to stand in:

| what is found | error |
| --- | --- |
| nothing | 2, `ENOENT` |
| a file | 20, `ENOTDIR` |
| a name of more than 255 bytes | 36, `ENAMETOOLONG` |

A path of 4096 bytes or more is too long as a whole, and one with a NUL is refused before the
host sees it. Where a file stands, a path that ends in a separator finds no directory, and no file
is created by such a path.

Hosts differ in the order in which a directory shows its names and in the numbers of their file
systems. Both are the host's own (`HostTraits`).
-/

namespace FlashVolume

/-- What stands at a location. -/
inductive HostNode where
  | directory (number : Nat)
  | file (number : Nat)
deriving DecidableEq, Repr, Inhabited

/-- An open file of the host. -/
structure HostFile where
  number : Nat
  position : Nat
  readable : Bool
  writable : Bool
  append : Bool
deriving DecidableEq, Repr, Inhabited

/-- An open directory of the host. Its names are taken at the first look. -/
structure HostDirectory where
  location : List String
  number : Nat
  names : Option (List String) := none
deriving DecidableEq, Repr, Inhabited

/-- What one host has different from another. -/
structure HostTraits where
  /-- The names of the directory at a location, in the order in which they are shown. -/
  arrange : List String → List String → List String
  /-- Each name is shown once. -/
  arrange_perm : ∀ location names, (arrange location names).Perm names
  /-- The numbers of the file system at a location. -/
  volumeStats : List String → VolumeStats

/-- A host that shows names in ascending order, and has the same numbers everywhere. -/
def HostTraits.ascending (stats : VolumeStats) : HostTraits where
  arrange _ names := names
  arrange_perm _ names := .refl names
  volumeStats _ := stats

/-- The host, as a process sees it. -/
structure HostSystem where
  traits : HostTraits
  /-- The location of the working directory. -/
  workingDirectory : List String
  /-- What stands at the locations other than the root. -/
  nodes : Std.TreeMap (List String) HostNode
  /-- The contents of the files, by their numbers. -/
  contents : List Bytes := []
  /-- The number of the next directory; those there are from the start have the number 0. -/
  nextDirectory : Nat := 1
  files : Handles HostFile := {}
  directories : Handles HostDirectory := {}

namespace HostSystem

/-- What a call of the host answers, and the host after it. -/
abbrev Answer (α : Type) := Except SystemError α × HostSystem

/-- The longest name, in bytes. -/
def maxNameLength : Nat := 255

/-- The longest path, in bytes. -/
def maxPathLength : Nat := 4095

/-- The largest size and offset of a file. -/
def maxOffset : Nat := Word.maxSigned64

/-- The failure of a path with a NUL. -/
def nulFailure : SystemError :=
  .text .invalidInput "file name contained an unexpected NUL byte"

/-- A host with a working directory and nothing in it. -/
def new (traits : HostTraits) (workingDirectory : List String) : HostSystem where
  traits := traits
  workingDirectory := workingDirectory
  nodes := (List.range workingDirectory.length).foldl
    (fun nodes i => nodes.insert (workingDirectory.take (i + 1)) (.directory 0)) {}

/-- What stands at a location. -/
def node? (h : HostSystem) (location : List String) : Option HostNode :=
  if location.isEmpty then some (.directory 0) else h.nodes[location]?

/-- The contents of the file with a number. -/
def data (h : HostSystem) (number : Nat) : Bytes :=
  h.contents[number]?.getD []

/-- Follows parts from a location. -/
def walk (h : HostSystem) : List String → List String → Except SystemError (List String)
  | location, [] => .ok location
  | location, part :: rest =>
    match h.node? location with
    | none => .error (.os Errno.noEntry)
    | some (.file _) => .error (.os Errno.notDirectory)
    | some (.directory _) =>
      if part = "." then h.walk location rest
      else if part = ".." then h.walk location.dropLast rest
      else if Text.byteLength part > maxNameLength then .error (.os Errno.nameTooLong)
      else h.walk (location ++ [part]) rest

/-- The location that a path names, whether or not anything stands there. -/
def locate (h : HostSystem) (path : HostPath) : Except SystemError (List String) :=
  if path.hasNul then .error nulFailure
  else if Text.byteLength path.toText > maxPathLength then .error (.os Errno.nameTooLong)
  else if path.isEmpty then .error (.os Errno.noEntry)
  else h.walk (if path.isAbsolute then [] else h.workingDirectory) path.parts

/-- The location that a path names, and what stands there. -/
def find (h : HostSystem) (path : HostPath) : Except SystemError (List String × HostNode) := do
  let location ← h.locate path
  match h.node? location with
  | none => .error (.os Errno.noEntry)
  | some (.directory number) => .ok (location, .directory number)
  | some (.file number) =>
    if path.endsInSeparator then .error (.os Errno.notDirectory)
    else .ok (location, .file number)

/-- What stands at a path. -/
def lookup (h : HostSystem) (path : HostPath) : Except SystemError HostNode :=
  (h.find path).map Prod.snd

/-- Whether a directory stands at a path. -/
def isDirectory (h : HostSystem) (path : HostPath) : Bool :=
  match h.lookup path with
  | .ok (.directory _) => true
  | _ => false

/-- Whether a file stands at a path. -/
def isFile (h : HostSystem) (path : HostPath) : Bool :=
  match h.lookup path with
  | .ok (.file _) => true
  | _ => false

/-- The names in a directory, in ascending order. -/
def childNames (h : HostSystem) (location : List String) : List String :=
  h.nodes.keys.filterMap fun key =>
    match key.getLast? with
    | some name => if key.dropLast = location then some name else none
    | none => none

/-- The names in a directory, in the order in which they are shown. -/
def names (h : HostSystem) (location : List String) : List String :=
  h.traits.arrange location (h.childNames location)

/-- The entry of a node. -/
def entry (h : HostSystem) (name : String) : HostNode → Entry
  | .directory _ => .ofDirectory name
  | .file number => .ofFile name (h.data number).length

/-- A contents list with the contents of one file changed. -/
def setData (h : HostSystem) (number : Nat) (data : Bytes) : HostSystem :=
  { h with contents := h.contents.set number data }

/-- Puts a new empty file at a location. -/
def createFile (h : HostSystem) (location : List String) : Nat × HostSystem :=
  (h.contents.length,
    { h with
      nodes := h.nodes.insert location (.file h.contents.length)
      contents := h.contents ++ [[]] })

/-! ## Directories -/

/-- Creates a directory. -/
def createDirectory (path : HostPath) (h : HostSystem) : Answer Unit :=
  match h.locate path with
  | .error e => (.error e, h)
  | .ok location =>
    match h.node? location with
    | some _ => (.error (.os Errno.alreadyExists), h)
    | none =>
      (.ok (), { h with
        nodes := h.nodes.insert location (.directory h.nextDirectory)
        nextDirectory := h.nextDirectory + 1 })

/-- Creates a directory and the directories on the way to it; one that exists is left alone. -/
def createDirectories (path : HostPath) (h : HostSystem) : Answer Unit :=
  if path.isEmpty then (.ok (), h)
  else
    match createDirectory path h with
    | (.ok (), h) => (.ok (), h)
    | (.error e, h) =>
      if e.kind = .notFound then
        match _h : path.parent? with
        | none => (.error (.text .uncategorized "failed to create whole tree"), h)
        | some parent =>
          match createDirectories parent h with
          | (.error e, h) => (.error e, h)
          | (.ok (), h) =>
            match createDirectory path h with
            | (.ok (), h) => (.ok (), h)
            | (.error e, h) => if h.isDirectory path then (.ok (), h) else (.error e, h)
      else if h.isDirectory path then (.ok (), h)
      else (.error e, h)
termination_by path.parts.length
decreasing_by exact HostPath.parent?_length_lt _h

/-- Removes a directory that is empty. -/
def removeDirectory (path : HostPath) (h : HostSystem) : Answer Unit :=
  match h.locate path with
  | .error e => (.error e, h)
  | .ok location =>
    if path.parts.getLast? = some "." then (.error (.os Errno.invalidArgument), h)
    else if path.parts.getLast? = some ".." ∨ ¬ (h.names location).isEmpty then
      (.error (.os Errno.notEmpty), h)
    else (.ok (), { h with nodes := h.nodes.erase location })

/-- Removes the entry of a file. -/
def removeFile (path : HostPath) (h : HostSystem) : Answer Unit :=
  match h.find path with
  | .error e => (.error e, h)
  | .ok (_, .directory _) => (.error (.os Errno.isDirectory), h)
  | .ok (location, .file _) => (.ok (), { h with nodes := h.nodes.erase location })

/-- Opens a directory. -/
def openDirectory (path : HostPath) (h : HostSystem) : Answer Nat :=
  match h.find path with
  | .error e => (.error e, h)
  | .ok (_, .file _) => (.error (.os Errno.notDirectory), h)
  | .ok (location, .directory number) =>
    (.ok h.directories.next,
      { h with directories := h.directories.add ⟨location, number, none⟩ })

/-- Whether an open directory still stands where it was opened. -/
def stands (d : HostDirectory) (h : HostSystem) : Bool :=
  h.node? d.location = some (.directory d.number)

/-- The names that an open directory has yet to deliver. -/
def namesLeft (d : HostDirectory) (h : HostSystem) : List String :=
  d.names.getD (if h.stands d then h.names d.location else [])

/-- Says which names an open directory has yet to deliver. -/
def setNamesLeft (h : HostSystem) (dir : Nat) (d : HostDirectory) (names : List String) :
    HostSystem :=
  { h with directories := h.directories.set dir { d with names := some names } }

/-- The next entry of an open directory, or the end mark. -/
def nextEntry (dir : Nat) (h : HostSystem) : Answer Entry :=
  match h.directories.get? dir with
  | none => (.error (.os Errno.badDescriptor), h)
  | some d =>
    match h.namesLeft d with
    | [] => (.ok .endMark, h.setNamesLeft dir d [])
    | name :: rest =>
      match if h.stands d then h.node? (d.location ++ [name]) else none with
      | some node => (.ok (h.entry name node), h.setNamesLeft dir d rest)
      | none => (.error (.os Errno.noEntry), h.setNamesLeft dir d rest)

/-! ## Files -/

/-- Creating a file that cannot be written. -/
def createFailure : SystemError :=
  .text .invalidInput "creating or truncating a file requires write or append access"

/-- Opening a file for nothing. -/
def accessFailure : SystemError :=
  .text .invalidInput "must specify at least one of read, write, or append access"

/-- A length that is no offset. -/
def lengthFailure : SystemError :=
  .text .invalidInput "number too large to fit in target type"

/-- Whether a mode lets a file be written. -/
def isWritable (mode : OpenMode) : Bool :=
  mode.write || mode.append

/-- Gives out a handle for a file. -/
def giveFile (number : Nat) (mode : OpenMode) (h : HostSystem) : Answer Nat :=
  (.ok h.files.next,
    { h with files := h.files.add ⟨number, 0, mode.read, isWritable mode, mode.append⟩ })

/-- Opens a file. The mode has to ask for access, and creating needs write access. -/
def openFile (path : HostPath) (mode : OpenMode) (h : HostSystem) : Answer Nat :=
  if path.hasNul then (.error nulFailure, h)
  else if mode.create && !isWritable mode then (.error createFailure, h)
  else if !mode.read && !isWritable mode then (.error accessFailure, h)
  else
    match h.locate path with
    | .error e => (.error e, h)
    | .ok location =>
      if mode.create && path.endsInSeparator then (.error (.os Errno.isDirectory), h)
      else
        match h.node? location with
        | some (.directory _) => (.error (.os Errno.isDirectory), h)
        | some (.file number) =>
          if path.endsInSeparator then (.error (.os Errno.notDirectory), h)
          else h.giveFile number mode
        | none =>
          if mode.create then (h.createFile location).2.giveFile (h.createFile location).1 mode
          else (.error (.os Errno.noEntry), h)

/-- Reads from an open file. Reading nothing needs no access; a read that would end behind the
largest offset is refused. -/
def readFile (file length : Nat) (h : HostSystem) : Answer Bytes :=
  match h.files.get? file with
  | none => (.error (.os Errno.badDescriptor), h)
  | some f =>
    if length = 0 then (.ok [], h)
    else if !f.readable then (.error (.os Errno.badDescriptor), h)
    else if f.position + length > maxOffset then (.error (.os Errno.invalidArgument), h)
    else
      let bytes := ((h.data f.number).drop f.position).take length
      (.ok bytes, { h with
        files := h.files.set file { f with position := f.position + bytes.length } })

/-- Writes to an open file, at its end if it is appended to. Writing nothing needs no access; a
write that would end behind the largest offset, from the position of the handle, is refused. -/
def writeFile (file : Nat) (bytes : Bytes) (h : HostSystem) : Answer Nat :=
  match h.files.get? file with
  | none => (.error (.os Errno.badDescriptor), h)
  | some f =>
    if bytes.isEmpty then (.ok 0, h)
    else if !f.writable then (.error (.os Errno.badDescriptor), h)
    else if f.position + bytes.length > maxOffset then (.error (.os Errno.invalidArgument), h)
    else
      let data := h.data f.number
      let position := if f.append then data.length else f.position
      let h := h.setData f.number (Bytes.overwrite data position bytes)
      (.ok bytes.length, { h with
        files := h.files.set file { f with position := position + bytes.length } })

/-- Goes to an offset of an open file. -/
def seekFile (file offset : Nat) (h : HostSystem) : Answer Unit :=
  match h.files.get? file with
  | none => (.error (.os Errno.badDescriptor), h)
  | some f =>
    if offset > maxOffset then (.error (.os Errno.invalidArgument), h)
    else (.ok (), { h with files := h.files.set file { f with position := offset } })

/-- Cuts an open file, or fills it with zeros, to a length. -/
def truncateFile (file length : Nat) (h : HostSystem) : Answer Unit :=
  match h.files.get? file with
  | none => (.error (.os Errno.badDescriptor), h)
  | some f =>
    if length > maxOffset then (.error lengthFailure, h)
    else if !f.writable then (.error (.os Errno.invalidArgument), h)
    else
      (.ok (), h.setData f.number (Bytes.resize (h.data f.number) length))

/-- Closes a file. -/
def closeFile (file : Nat) (h : HostSystem) : Answer Unit :=
  (.ok (), { h with files := h.files.close file })

/-- Closes a directory. -/
def closeDirectory (dir : Nat) (h : HostSystem) : Answer Unit :=
  (.ok (), { h with directories := h.directories.close dir })

/-! ## Set-up and inspection -/

/-- Puts a file with the given contents at a path, and creates the directories on the way to it.
What stands in the way stays. -/
def placeFile (path : HostPath) (data : Bytes) (h : HostSystem) : HostSystem :=
  let h := match path.parent? with
    | some parent => (createDirectories parent h).2
    | none => h
  match h.locate path with
  | .error _ => h
  | .ok location =>
    match h.node? location with
    | some (.directory _) => h
    | some (.file number) => h.setData number data
    | none =>
      let (number, h) := h.createFile location
      h.setData number data

/-- The contents of the file at a path. -/
def fileContents? (path : HostPath) (h : HostSystem) : Option Bytes :=
  match h.lookup path with
  | .ok (.file number) => some (h.data number)
  | _ => none

/-- What stands below the working directory, depth first, siblings in the order of their names, as
names from there. -/
def listing (h : HostSystem) : List (List String × HostNode) :=
  let depth := h.workingDirectory.length
  h.nodes.toList.filterMap fun (key, node) =>
    if h.workingDirectory.isPrefixOf key ∧ depth < key.length then some (key.drop depth, node)
    else none

end HostSystem
end FlashVolume

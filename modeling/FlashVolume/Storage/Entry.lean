/-!
# Entries and open modes

Section 3 of the specification (`DirectoryEntry`), and the modes of `open` in section 6.

What crosses the boundary of a volume besides paths and bytes.
-/

namespace FlashVolume

/-- What an entry of a directory is. -/
inductive EntryKind where
  | file
  | directory
deriving DecidableEq, Repr, Inhabited

/-- The letter of a kind in listings. -/
def EntryKind.tag : EntryKind → Char
  | file => 'F'
  | directory => 'D'

/-- An entry of a directory. A directory has size 0. An entry without a name is no entry: it marks
the end of an enumeration. -/
structure Entry where
  kind : EntryKind
  size : Nat
  name : String
deriving DecidableEq, Repr, Inhabited

namespace Entry

/-- The entry of a file. -/
def ofFile (name : String) (size : Nat) : Entry :=
  ⟨.file, size, name⟩

/-- The entry of a directory. -/
def ofDirectory (name : String) : Entry :=
  ⟨.directory, 0, name⟩

/-- The mark at the end of an enumeration. -/
def endMark : Entry :=
  ofFile "" 0

/-- Whether the entry is the mark at the end of an enumeration. -/
def isEnd (entry : Entry) : Bool :=
  entry.name.isEmpty

end Entry

/-- What a file is opened for. -/
structure OpenMode where
  read : Bool := false
  write : Bool := false
  /-- Create the file if it is missing. -/
  create : Bool := false
  /-- Write at the end. -/
  append : Bool := false
deriving DecidableEq, Repr, Inhabited

namespace OpenMode

/-- Read an existing file. -/
def readOnly : OpenMode where
  read := true

/-- Write from the start, and create the file if it is missing. -/
def replacing : OpenMode where
  write := true
  create := true

/-- Write at the end, and create the file if it is missing. -/
def appending : OpenMode where
  write := true
  create := true
  append := true

end OpenMode

/-- The numbers of a volume. -/
structure VolumeStats where
  /-- The best size of a transfer. -/
  blockSize : Nat
  /-- The unit of allocation. -/
  fragmentSize : Nat
  freeBlocks : Nat
deriving DecidableEq, Repr, Inhabited

end FlashVolume

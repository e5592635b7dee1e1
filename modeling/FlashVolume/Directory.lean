import FlashVolume.Allocator
import FlashVolume.File
import FlashVolume.Path.Normalize
import FlashVolume.Path.Stages
import FlashVolume.Text.Numeral
import FlashVolume.Text.Search
/-!
# Directories

Section 4.3 of the specification (`find`), section 4.4 (`exists_unique` is `uniqueSize`,
`delete_matching` is `deleteMatching`), section 4.6 (`mkdir_recursive` is `makePath`) and section
10.6 (`mkdir` is `make`, `list_directory` is `list`, `last_history_file` is `lastHistoryNumber`).

`enumerate` shows the entries of a directory to a visitor and closes the directory on every way
out; what the close answers does not count.

`find` enumerates twice: first it counts the entries that match, then it collects that many. A
directory that has lost matching entries in between gives fewer, one that has gained some is cut at
the first count. Room for that many is asked for in between; if it is not given, nothing is found.

The other operations are `list`, `uniqueSize`, `make` and `makePath`, `deleteMatching` and
`lastHistoryNumber`.
-/

namespace FlashVolume
namespace Directory

/-- Shows the entries of a directory to a visitor, and answers what the visitor has and the error
that stopped the enumeration, if one did. -/
def enumerate {γ : Type} (dir : String) (visit : γ → Entry → ForInStep γ) (start : γ) :
    Program (γ × Option StorageError) :=
  .call (.opendir dir) fun
    | .error e => .ret (start, some e)
    | .ok handle =>
      .scan handle visit start fun acc error =>
        .call (.closedir handle) fun _ => .ret (acc, error)

/-- Whether an entry is of the kind and its name contains the text. -/
def isMatch (name : String) (kind : EntryKind) (entry : Entry) : Bool :=
  entry.kind = kind && Text.contains name entry.name

/-- Counts the entries that match. -/
def countMatches (name : String) (kind : EntryKind) (count : Nat) (entry : Entry) :
    ForInStep Nat :=
  .yield (if isMatch name kind entry then count + 1 else count)

/-- Collects the entries that match, until there are `count` of them. -/
def collectMatches (name : String) (kind : EntryKind) (count : Nat) (found : List Entry)
    (entry : Entry) : ForInStep (List Entry) :=
  let found := if isMatch name kind entry then found ++ [entry] else found
  if found.length < count then .yield found else .done found

/-- The entries of a directory that are of the kind and whose name contains the text, in the order
of enumeration. What cannot be read, or cannot be held in memory, is not there. -/
def find [Allocator] (dir name : String) (kind : EntryKind) : Program (List Entry) :=
  if dir.isEmpty then pure []
  else do
    let (count, _) ← enumerate dir (countMatches name kind) 0
    if count = 0 ∨ !Allocator.grantsEntries count then return []
    let (found, _) ← enumerate dir (collectMatches name kind count) []
    return found

/-- Refuses the empty path of a directory. -/
def requireDirectory (dir : String) : Operation Unit :=
  if dir.isEmpty then throw (.invalidInput "empty directory") else pure ()

/-- What an enumeration collects; an error that stopped it is the error of the operation. -/
def collect {γ : Type} (dir : String) (visit : γ → Entry → γ) (start : γ) : Operation γ := do
  let (acc, error) ← Operation.ofProgram
    (enumerate dir (fun acc entry => .yield (visit acc entry)) start)
  match error with
  | some e => throw (.ofStorage e)
  | none => return acc

/-- All entries of a directory, in the order of enumeration. -/
def list (dir : String) : Operation (List Entry) := do
  requireDirectory dir
  collect dir (fun entries entry => entries ++ [entry]) []

/-- The size of the only entry of a directory that is of the kind and whose name contains the
text. -/
def uniqueSize [Allocator] (dir name : String) (kind : EntryKind) : Operation Nat := do
  requireDirectory dir
  match ← Operation.ofProgram (find dir name kind) with
  | [] => throw (.notFound s!"{dir}/{name}")
  | [entry] => return entry.size
  | entries => throw (.ambiguousMatch name entries.length)

/-- Makes sure that a directory exists. -/
def makeStage (path : String) : Operation Unit := do
  match ← Operation.attempt (.stat path) with
  | .ok entry => if entry.kind = .file then throw (.notADirectory path)
  | .error _ => Operation.request (.mkdir path)

/-- Makes sure that a directory exists. With `recursive` the directories on the way to it are
created as well. -/
def makePath (path : String) (recursive : Bool) (config : Config) : Operation Unit := do
  let clean ← Operation.ofExcept (Path.normalizeWithin path config)
  match ← Operation.attempt (.stat clean) with
  | .ok entry => if entry.kind = .file then throw (.notADirectory clean)
  | .error _ =>
    let target := Path.trimSeparators clean
    if target.isEmpty then throw (.invalidInput path)
    (if recursive then Path.stages target else [target]).forM makeStage

/-- Makes sure that a directory exists, in a directory that exists. -/
def make (dir name : String) (config : Config) : Operation Unit :=
  File.inDirectory dir name config fun path => makePath path false config

/-- Removes entries of a directory one by one, until one does not resolve or cannot be removed, and
answers how many are gone, counting from `deleted`. -/
def deleteEach (dir : String) (config : Config) : List Entry → Nat → Operation Nat
  | [], deleted => pure deleted
  | entry :: rest, deleted =>
    match Path.resolve dir entry.name config with
    | .error .overflow => throw .overflow
    | .error _ => pure deleted
    | .ok path => do
      match ← Operation.attempt (.unlink path) with
      | .error _ => pure deleted
      | .ok () => deleteEach dir config rest (deleted + 1)

/-- Removes the files of a directory whose name contains the text, up to the first that cannot be
removed, and answers how many are gone. -/
def deleteMatching [Allocator] (dir name : String) (config : Config) : Operation Nat := do
  requireDirectory dir
  let found ← Operation.ofProgram (find dir name .file)
  deleteEach dir config found 0

/-- The number that a name carries behind the stem: its leading digits, if there are any and their
value has 32 bits. -/
def historyNumber? (stem name : String) : Option Nat := do
  let rest ← Text.stripStem? stem name
  (Text.digits? (rest.toList.takeWhile Char.isDigit)).filter (· ≤ Word.maxUnsigned32)

/-- The highest number that an entry of the directory carries behind the stem, or 0. -/
def lastHistoryNumber (dir stem : String) : Operation Nat := do
  if dir.isEmpty ∨ stem.isEmpty then throw (.invalidInput "empty directory or prefix")
  collect dir (fun highest entry => max highest ((historyNumber? stem entry.name).getD 0)) 0

end Directory
end FlashVolume

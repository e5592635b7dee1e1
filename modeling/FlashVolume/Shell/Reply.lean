import FlashVolume.Digest.File
import FlashVolume.Directory
import FlashVolume.Shell.Command
/-!
# Replies

Section 10.7 of the specification: `handle_command`.

What the shell answers to a command. An entry of a listing is its letter, its size in a field of at
least eight columns, and its name; entries are separated by line breaks. An error is answered with
its result code and its text; an overflow stops the command, and nothing is answered.
-/

namespace FlashVolume

/-- What the shell does with a command. -/
inductive Reply where
  | quit
  | text (text : String)
  /-- The command has been stopped by an overflow. -/
  | overflow
deriving DecidableEq, Repr

namespace Reply

/-- The characters moved to the right of a field of `width` columns, if they are fewer. -/
def alignRight (width : Nat) (cs : List Char) : List Char :=
  List.replicate (width - cs.length) ' ' ++ cs

/-- A line of a listing. -/
def entryLine (entry : Entry) : String :=
  String.ofList (entry.kind.tag :: ' ' :: alignRight 8 (Nat.toDigits 10 entry.size)
    ++ ' ' :: entry.name.toList)

/-- A listing. -/
def listing (entries : List Entry) : String :=
  String.intercalate "\n" (entries.map entryLine)

/-- The text of a file from an offset to its end. -/
def fileText (path : String) (offset : Nat) : Operation String := do
  let total ← File.size path
  let filled ← File.read path offset (List.replicate (total - offset) 0)
  return Text.decodeLossy (filled.buffer.take filled.count)

/-- The digest of a file, all of it unless a size is given. -/
def digestText [Allocator] (algorithm : Algorithm) (path : String) (size : Option Nat)
    (config : Config) : Operation String := do
  let size ← match size with
    | some size => pure size
    | none => File.size path
  return (← Digest.ofFile path size algorithm config).toHex

/-- The text that answers a command other than `quit`. -/
def answer [Allocator] (config : Config) : Command → Operation String
  | .quit => return ""
  | .ls dir => return listing (← Directory.list dir)
  | .find dir name kind => return listing (← Operation.ofProgram (Directory.find dir name kind))
  | .read path offset => fileText path offset
  | .write path data => do
    let written ← File.write path (Text.encode data) config
    return s!"wrote {written} bytes"
  | .append path data => do
    let written ← File.append path (Text.encode data)
    return s!"appended {written} bytes"
  | .rm path => do
    File.delete path
    return "deleted"
  | .rmall dir name => do
    let deleted ← Directory.deleteMatching dir name config
    return s!"deleted {deleted} files"
  | .size path => return toString (← File.size path)
  | .unique dir name => do
    let size ← Directory.uniqueSize dir name .file
    return s!"exists, {size} bytes"
  | .digest algorithm path size => digestText algorithm path size config
  | .mkdir path recursive => do
    Directory.makePath path recursive config
    return "created"
  | .history dir stem => return toString (← Directory.lastHistoryNumber dir stem)
  | .usage usage => return s!"usage: {usage.text}"
  | .unknown line => return s!"unknown command: {line}"

/-- The text of an answer or of an error. -/
def ofResult : Except Error String → Reply
  | .ok answer => text answer
  | .error .overflow => overflow
  | .error e => text s!"error {e.status}: {e.message}"

/-- What the shell does with a command. -/
def ofCommand [Allocator] (config : Config) : Command → Program Reply
  | .quit => pure quit
  | command => do return ofResult (← (answer config command).run)

end Reply
end FlashVolume

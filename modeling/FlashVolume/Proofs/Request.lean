import FlashVolume.Digest.File
import FlashVolume.Directory
import FlashVolume.Gate
/-!
# Requests

The operations as data, so that a statement can be about every finite sequence of them. A
`FileRequest` names one file by its path; a `Request` is any operation, and `Request.operation`
is the operation that it asks for.
-/

namespace FlashVolume

/-- What a request is answered with, if it succeeds. -/
inductive Response where
  | done
  /-- A number of bytes or of entries, a size, or a number of a history. -/
  | number (n : Nat)
  | filled (filled : File.Filled)
  | entries (entries : List Entry)
  | digest (value : Digest)
deriving DecidableEq, Repr

/-- An operation on a single file. -/
inductive FileRequest where
  | read (path : String) (offset : Nat) (buffer : Bytes)
  | write (path : String) (data : Bytes)
  | append (path : String) (data : Bytes)
  | delete (path : String)
  | size (path : String)
deriving DecidableEq, Repr

namespace FileRequest

/-- The file that the request is about. -/
def path : FileRequest → String
  | read path _ _ => path
  | write path _ => path
  | append path _ => path
  | delete path => path
  | size path => path

/-- What the request asks for. -/
def operation (config : Config) : FileRequest → Operation Response
  | read path offset buffer => .filled <$> File.read path offset buffer
  | write path data => .number <$> File.write path data config
  | append path data => .number <$> File.append path data
  | delete path => (fun _ => .done) <$> File.delete path
  | size path => .number <$> File.size path

end FileRequest

/-- An operation. -/
inductive Request where
  | file (request : FileRequest)
  | readIn (dir name : String) (buffer : Bytes)
  | writeIn (dir name : String) (data : Bytes)
  | appendIn (dir name : String) (data : Bytes)
  | deleteIn (dir name : String)
  | sizeIn (dir name : String)
  | digest (path : String) (size : Nat) (algorithm : Algorithm)
  | digestIn (dir name : String) (size : Nat) (algorithm : Algorithm)
  /-- The digest is put into a cell that holds `cell`. -/
  | digestInto (path : String) (size : Nat) (algorithm : Algorithm) (cell : Digest)
  | find (dir name : String) (kind : EntryKind)
  | uniqueSize (dir name : String) (kind : EntryKind)
  | list (dir : String)
  | lastHistoryNumber (dir stem : String)
  | makePath (path : String) (recursive : Bool)
  | make (dir name : String)
  | deleteMatching (dir name : String)
deriving DecidableEq, Repr

namespace Request

/-- The path that the request names: that of an entry, or that of the directory of the entries it
is about. -/
def path : Request → String
  | file request => request.path
  | readIn dir _ _ => dir
  | writeIn dir _ _ => dir
  | appendIn dir _ _ => dir
  | deleteIn dir _ => dir
  | sizeIn dir _ => dir
  | digest path _ _ => path
  | digestIn dir _ _ _ => dir
  | digestInto path _ _ _ => path
  | find dir _ _ => dir
  | uniqueSize dir _ _ => dir
  | list dir => dir
  | lastHistoryNumber dir _ => dir
  | makePath path _ => path
  | make dir _ => dir
  | deleteMatching dir _ => dir

/-- What the request asks for. -/
def operation [Allocator] (config : Config) : Request → Operation Response
  | file request => request.operation config
  | readIn dir name buffer => .filled <$> File.readIn dir name buffer config
  | writeIn dir name data => .number <$> File.writeIn dir name data config
  | appendIn dir name data => .number <$> File.appendIn dir name data config
  | deleteIn dir name => (fun _ => .done) <$> File.deleteIn dir name config
  | sizeIn dir name => .number <$> File.sizeIn dir name config
  | digest path size algorithm => .digest <$> Digest.ofFile path size algorithm config
  | digestIn dir name size algorithm => .digest <$> Digest.ofFileIn dir name size algorithm config
  | digestInto path size algorithm cell => ExceptT.mk do
    let (result, value) ← (Digest.intoCell path size algorithm config).run cell
    return result.map fun _ => .digest value
  | find dir name kind => .entries <$> Operation.ofProgram (Directory.find dir name kind)
  | uniqueSize dir name kind => .number <$> Directory.uniqueSize dir name kind
  | list dir => .entries <$> Directory.list dir
  | lastHistoryNumber dir stem => .number <$> Directory.lastHistoryNumber dir stem
  | makePath path recursive => (fun _ => .done) <$> Directory.makePath path recursive config
  | make dir name => (fun _ => .done) <$> Directory.make dir name config
  | deleteMatching dir name => .number <$> Directory.deleteMatching dir name config

end Request
end FlashVolume

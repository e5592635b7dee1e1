import FlashVolume.Proofs.Request
import FlashVolume.Proofs.Storage.Discipline
import FlashVolume.Proofs.Storage.Running
import FlashVolume.Shell.Reply
/-!
# The discipline of the operations

Sections 4.4 and 4.5 of the specification: a file is always closed, also where the work on it is
given up.

Every operation, and every command of the shell, is in order with its handles: it leads from no open
handle to no open handle, on a volume that answers as it likes. Work on an open file keeps that file
open, and only `withFile` and `enumerate` open and close.
-/

namespace FlashVolume

open Operation

variable {held : Option OpenHandle}

/-! ### Files -/

namespace File

/-- Reading seeks and reads with the handle it is given, and leaves it open. -/
theorem keeps_readFrom (offset : Nat) (buffer : Bytes) (file : FileHandle) :
    Keeps (some (.file file)) (readFrom offset buffer file) := by
  have hread : Keeps (some (.file file)) (do
      let bytes ← request (.read file buffer.length)
      return fill buffer bytes) :=
    (keeps_request (Call.preserves_read file _)).bind fun bytes => keeps_pure _
  have hseek : Keeps (some (.file file)) (request (.seek file offset)) :=
    keeps_request (Call.preserves_seek file offset)
  exact Keeps.ite (hseek.bind fun _ => hread) hread

/-- A read opens its file and closes it, whatever happens between. -/
theorem keeps_read (path : String) (offset : Nat) (buffer : Bytes) :
    Keeps none (read path offset buffer) := by
  have hfile : Keeps none (withFile path .readOnly (readFrom offset buffer)) :=
    keeps_withFile (keeps_readFrom offset buffer)
  refine (keeps_requirePath path).bind fun _ => ?_
  refine (keeps_requestOr (Call.preserves_stat path) _).bind fun entry => ?_
  exact Keeps.ite ((keeps_throw _).bind fun _ => hfile) hfile

/-- A size is one `stat`, which needs no handle. -/
theorem keeps_size (path : String) : Keeps held (size path) := by
  refine (keeps_requirePath path).bind fun _ => ?_
  exact (keeps_requestOr (Call.preserves_stat path) _).bind fun entry => keeps_pure _

/-- Writing uses the handle it is given, and leaves it open. -/
theorem keeps_writeAll (file : FileHandle) (data : Bytes) :
    Keeps (some (.file file)) (writeAll file data) := by
  refine (keeps_request (Call.preserves_write file data)).bind fun written => ?_
  exact Keeps.ite ((keeps_throw _).bind fun _ => keeps_pure _) (keeps_pure _)

/-- The check after a write is one `stat`, which needs no handle. -/
theorem keeps_verifySize (path : String) (desired : Nat) :
    Keeps held (verifySize path desired) := by
  refine (keeps_size path).observe.bind fun result => ?_
  cases result with
  | error e => exact keeps_throw _
  | ok actual => exact Keeps.ite (keeps_throw _) (keeps_pure _)

/-- A write closes its file before it checks the size. -/
theorem keeps_write (path : String) (data : Bytes) (config : Config) :
    Keeps none (write path data config) := by
  have hwork : ∀ file, Keeps (some (.file file)) (do
      request (.truncate file data.length)
      writeAll file data) := fun file =>
    (keeps_request (Call.preserves_truncate file _)).bind fun _ => keeps_writeAll file data
  refine (keeps_requirePath path).bind fun _ => ?_
  refine (keeps_withFile hwork).bind fun written => ?_
  exact Keeps.ite ((keeps_verifySize path data.length).bind fun _ => keeps_pure _) (keeps_pure _)

/-- An append opens its file and closes it, whatever happens between. -/
theorem keeps_append (path : String) (data : Bytes) : Keeps none (append path data) := by
  refine (keeps_requirePath path).bind fun _ => ?_
  exact keeps_withFile fun file => keeps_writeAll file data

/-- A delete takes a path, and needs no handle. -/
theorem keeps_delete (path : String) : Keeps held (delete path) := by
  refine (keeps_requirePath path).bind fun _ => ?_
  exact keeps_requestOr (Call.preserves_unlink path) _

end File

/-! ### Digests -/

namespace Digest

/-- Feeding an engine reads with the handle it is given, chunk after chunk, and leaves it open. -/
theorem keeps_feed (file : FileHandle) (path : String) {chunk : Nat} (hchunk : 0 < chunk)
    (remaining : Nat) (acc : Accumulator) :
    Keeps (some (.file file)) (feed file path chunk hchunk remaining acc) := by
  -- By induction on the bytes that are still to be read, which each chunk makes fewer.
  induction remaining using Nat.strongRecOn generalizing acc with
  | ind remaining ih =>
    rw [feed]
    split
    · exact keeps_pure _
    · next hremaining =>
      have hless : remaining - min remaining chunk < remaining := by omega
      refine (keeps_requestOr (Call.preserves_read file _) _).bind fun bytes => ?_
      exact Keeps.ite ((keeps_throw _).bind fun _ => ih _ hless _) (ih _ hless _)

/-- A digest of an open file leaves it open, also where its buffer is refused. -/
theorem keeps_stream [Allocator] (file : FileHandle) (path : String) (size chunk : Nat)
    (algorithm : Algorithm) :
    Keeps (some (.file file)) (stream file path size chunk algorithm) := by
  rw [stream]
  split
  · next hchunk =>
    have hfeed := (keeps_feed file path hchunk size (.start algorithm)).bind fun acc =>
      keeps_pure acc.finish
    exact Keeps.ite ((keeps_throw _).bind fun _ => hfeed) hfeed
  · exact Keeps.ite (keeps_throw _) (keeps_pure _)

/-- A digest closes the file it opens, whatever happens between. -/
theorem keeps_ofFile [Allocator] (path : String) (size : Nat) (algorithm : Algorithm)
    (config : Config) : Keeps none (ofFile path size algorithm config) := by
  refine (keeps_requirePath path).bind fun _ => ?_
  exact keeps_withFile fun file => keeps_stream file path size _ algorithm

/-- A digest into a cell makes the calls of the digest, so it too ends with no handle open. -/
theorem intoCell_leads [Allocator] (path : String) (size : Nat) (algorithm : Algorithm)
    (config : Config) (cell : Digest) :
    ((intoCell path size algorithm config).run cell).Leads none none := by
  refine Program.Leads.bind rfl fun start => ?_
  have hdigest := keeps_ofFile path size algorithm config
  refine Program.Leads.bind (Program.Leads.bind hdigest fun _ => rfl) fun result => ?_
  obtain ⟨e | value, cell⟩ := result
  · rfl
  · rfl

end Digest

/-! ### Directories -/

namespace Directory

/-- **A directory is closed on every way out,** and what the close answers does not count. -/
theorem enumerate_leads {γ : Type} (dir : String) (visit : γ → Entry → ForInStep γ) (start : γ) :
    (enumerate dir visit start).Leads none none := by
  refine ⟨?_, nofun⟩
  rintro (e | handle)
  · exact ⟨none, rfl, rfl⟩
  · refine ⟨some (.directory handle), rfl, rfl, fun acc error => ?_⟩
    exact ⟨fun _ => ⟨none, Event.using?_self _ _, rfl⟩, fun _ _ _ => rfl⟩

/-- Both passes of a search close the directory they open. -/
theorem find_leads [Allocator] (dir name : String) (kind : EntryKind) :
    (find dir name kind).Leads none none := by
  rw [find]
  split
  · rfl
  · refine (enumerate_leads dir _ _).bind fun counted => ?_
    dsimp only
    split
    · rfl
    · exact (enumerate_leads dir _ _).bind fun found => rfl

/-- The check for an empty path makes no call. -/
theorem keeps_requireDirectory (dir : String) : Keeps held (requireDirectory dir) :=
  Keeps.ite (keeps_throw _) (keeps_pure _)

/-- A walk through a directory closes it, also after an entry that cannot be read. -/
theorem keeps_collect {γ : Type} (dir : String) (visit : γ → Entry → γ) (start : γ) :
    Keeps none (collect dir visit start) := by
  refine (keeps_ofProgram (enumerate_leads dir _ _)).bind fun result => ?_
  obtain ⟨acc, _ | e⟩ := result
  · exact keeps_pure _
  · exact keeps_throw _

/-- A listing is one walk. -/
theorem keeps_list (dir : String) : Keeps none (list dir) :=
  (keeps_requireDirectory dir).bind fun _ => keeps_collect dir _ _

/-- Looking for the one match is a search. -/
theorem keeps_uniqueSize [Allocator] (dir name : String) (kind : EntryKind) :
    Keeps none (uniqueSize dir name kind) := by
  refine (keeps_requireDirectory dir).bind fun _ => ?_
  refine (keeps_ofProgram (find_leads dir name kind)).bind fun found => ?_
  split
  · exact keeps_throw _
  · exact keeps_pure _
  · exact keeps_throw _

/-- Looking for the greatest number is one walk. -/
theorem keeps_lastHistoryNumber (dir stem : String) :
    Keeps none (lastHistoryNumber dir stem) := by
  have hcollect := keeps_collect dir
    (fun highest entry => max highest ((historyNumber? stem entry.name).getD 0)) 0
  exact Keeps.ite ((keeps_throw _).bind fun _ => hcollect) hcollect

/-- Making one stage takes paths, and needs no handle. -/
theorem keeps_makeStage (path : String) : Keeps held (makeStage path) := by
  refine (keeps_attempt (Call.preserves_stat path)).bind fun answer => ?_
  cases answer with
  | error e => exact keeps_request (Call.preserves_mkdir path)
  | ok entry => exact Keeps.ite (keeps_throw _) (keeps_pure _)

/-- Making a path makes its stages one after the other, with no handle. -/
theorem keeps_makePath (path : String) (recursive : Bool) (config : Config) :
    Keeps held (makePath path recursive config) := by
  have hstages : ∀ stages : List String, Keeps held (stages.forM makeStage) := by
    intro stages
    induction stages with
    | nil => exact keeps_pure _
    | cons stage stages ih => exact (keeps_makeStage stage).bind fun _ => ih
  refine (keeps_ofExcept _).bind fun clean => ?_
  refine (keeps_attempt (Call.preserves_stat clean)).bind fun answer => ?_
  cases answer with
  | error e => exact Keeps.ite ((keeps_throw _).bind fun _ => hstages _) (hstages _)
  | ok entry => exact Keeps.ite (keeps_throw _) (keeps_pure _)

/-- The unlinks of a bulk delete take paths, and need no handle. -/
theorem keeps_deleteEach (dir : String) (config : Config) (entries : List Entry) (deleted : Nat) :
    Keeps held (deleteEach dir config entries deleted) := by
  induction entries generalizing deleted with
  | nil => exact keeps_pure _
  | cons entry entries ih =>
    rw [deleteEach]
    split
    · exact keeps_throw _
    · exact keeps_pure _
    · next path hresolve =>
      refine (keeps_attempt (Call.preserves_unlink path)).bind fun answer => ?_
      cases answer with
      | error e => exact keeps_pure _
      | ok => exact ih (deleted + 1)

/-- A bulk delete has closed the directory before its first unlink. -/
theorem keeps_deleteMatching [Allocator] (dir name : String) (config : Config) :
    Keeps none (deleteMatching dir name config) := by
  refine (keeps_requireDirectory dir).bind fun _ => ?_
  refine (keeps_ofProgram (find_leads dir name .file)).bind fun found => ?_
  exact keeps_deleteEach dir config found 0

end Directory

/-! ### Requests and commands -/

/-- Every request about one file starts and ends with no handle open. -/
theorem FileRequest.keeps_operation (config : Config) (request : FileRequest) :
    Keeps none (request.operation config) := by
  cases request with
  | read path offset buffer => exact (File.keeps_read path offset buffer).map _
  | write path data => exact (File.keeps_write path data config).map _
  | append path data => exact (File.keeps_append path data).map _
  | delete path => exact (File.keeps_delete path).map _
  | size path => exact (File.keeps_size path).map _

/-- Every request starts and ends with no handle open. -/
theorem Request.keeps_operation [Allocator] (config : Config) (request : Request) :
    Keeps none (request.operation config) := by
  cases request with
  | file request => exact request.keeps_operation config
  | readIn dir name buffer =>
    exact Keeps.map (keeps_inDirectory fun path => File.keeps_read path 0 buffer) _
  | writeIn dir name data =>
    exact Keeps.map (keeps_inDirectory fun path => File.keeps_write path data config) _
  | appendIn dir name data =>
    exact Keeps.map (keeps_inDirectory fun path => File.keeps_append path data) _
  | deleteIn dir name => exact Keeps.map (keeps_inDirectory File.keeps_delete) _
  | sizeIn dir name => exact Keeps.map (keeps_inDirectory File.keeps_size) _
  | digest path size algorithm => exact (Digest.keeps_ofFile path size algorithm config).map _
  | digestIn dir name size algorithm =>
    exact Keeps.map
      (keeps_inDirectory fun path => Digest.keeps_ofFile path size algorithm config) _
  | digestInto path size algorithm cell =>
    exact (Digest.intoCell_leads path size algorithm config cell).bind fun _ => rfl
  | find dir name kind => exact (keeps_ofProgram (Directory.find_leads dir name kind)).map _
  | uniqueSize dir name kind => exact (Directory.keeps_uniqueSize dir name kind).map _
  | list dir => exact (Directory.keeps_list dir).map _
  | lastHistoryNumber dir stem => exact (Directory.keeps_lastHistoryNumber dir stem).map _
  | makePath path recursive => exact (Directory.keeps_makePath path recursive config).map _
  | make dir name =>
    exact Keeps.map (keeps_inDirectory fun path => Directory.keeps_makePath path false config) _
  | deleteMatching dir name => exact (Directory.keeps_deleteMatching dir name config).map _

namespace Reply

/-- Showing a file reads it, and holds nothing afterwards. -/
theorem keeps_fileText (path : String) (offset : Nat) : Keeps none (fileText path offset) := by
  refine (File.keeps_size path).bind fun total => ?_
  exact (File.keeps_read path offset _).bind fun filled => keeps_pure _

/-- Showing a digest computes it, and holds nothing afterwards. -/
theorem keeps_digestText [Allocator] (algorithm : Algorithm) (path : String) (size : Option Nat)
    (config : Config) : Keeps none (digestText algorithm path size config) := by
  have hdigest : ∀ size, Keeps none (do
      return (← Digest.ofFile path size algorithm config).toHex) := fun size =>
    (Digest.keeps_ofFile path size algorithm config).bind fun value => keeps_pure _
  cases size with
  | none => exact (File.keeps_size path).bind hdigest
  | some size => exact (keeps_pure size).bind hdigest

/-- Every command of the shell starts and ends with no handle open. -/
theorem keeps_answer [Allocator] (config : Config) (command : Command) :
    Keeps none (answer config command) := by
  cases command with
  | quit => exact keeps_pure _
  | ls dir => exact (Directory.keeps_list dir).bind fun entries => keeps_pure _
  | find dir name kind =>
    exact (keeps_ofProgram (Directory.find_leads dir name kind)).bind fun found => keeps_pure _
  | read path offset => exact keeps_fileText path offset
  | write path data =>
    exact (File.keeps_write path _ config).bind fun written => keeps_pure _
  | append path data => exact (File.keeps_append path _).bind fun written => keeps_pure _
  | rm path => exact (File.keeps_delete path).bind fun _ => keeps_pure _
  | rmall dir name =>
    exact (Directory.keeps_deleteMatching dir name config).bind fun deleted => keeps_pure _
  | size path => exact (File.keeps_size path).bind fun size => keeps_pure _
  | unique dir name =>
    exact (Directory.keeps_uniqueSize dir name .file).bind fun size => keeps_pure _
  | digest algorithm path size => exact keeps_digestText algorithm path size config
  | mkdir path recursive =>
    exact (Directory.keeps_makePath path recursive config).bind fun _ => keeps_pure _
  | history dir stem =>
    exact (Directory.keeps_lastHistoryNumber dir stem).bind fun number => keeps_pure _
  | usage usage => exact keeps_pure _
  | unknown line => exact keeps_pure _

/-- The program a command stands for starts and ends with no handle open. -/
theorem ofCommand_leads [Allocator] (config : Config) (command : Command) :
    (ofCommand config command).Leads none none := by
  cases command with
  | quit => rfl
  | _ => exact Program.Leads.bind (keeps_answer config _) fun result => rfl

end Reply

/-- **Handles are opened, used and closed in order.**  On a volume that answers as it likes, every
operation and every command of the shell closes what it opens exactly once, uses nothing that is
closed, has at most one handle open at a time, and does not close what it could not open. Whether a
`closedir` fails makes no difference to the answer. -/
theorem isDisciplined_operation_and_ofCommand [Allocator] (config : Config) :
    (∀ request : Request, (request.operation config).run.IsDisciplined) ∧
      ∀ command, (Reply.ofCommand config command).IsDisciplined :=
  ⟨fun request => (request.keeps_operation config).isDisciplined,
    fun command => (Reply.ofCommand_leads config command).isDisciplined⟩

end FlashVolume

import FlashVolume.Proofs.Path.Names
import FlashVolume.Proofs.Request
import FlashVolume.Proofs.Storage.Footprint
import FlashVolume.Shell.Reply
/-!
# Footprints of the operations

| operations | calls |
| --- | --- |
| reading, sizing, digests, enumerations | queries |
| writing, appending, making directories | calls that remove no entry |
| deleting | calls that create no entry and spare the root |

A path can only be the root if it is given as such: a name that resolves in a directory gives a
path of at least three characters. No operation mounts the volume (`operation_not_mounts`), and no
command of the shell does (`ofCommand_not_mounts`).
-/

namespace FlashVolume

open Operation

/-! ### Files -/

namespace File

/-- Reading an open file only asks. -/
theorem readFrom_only (offset : Nat) (buffer : Bytes) (file : FileHandle) :
    Only Call.IsQuery (readFrom offset buffer file) := by
  have hread : Only Call.IsQuery (do
      let bytes ← request (.read file buffer.length)
      return fill buffer bytes) :=
    Only.bind (only_request trivial) fun bytes => only_pure _
  exact Only.ite (.bind (only_request trivial) fun _ => hread) hread

/-- A read only asks. -/
theorem read_only (path : String) (offset : Nat) (buffer : Bytes) :
    Only Call.IsQuery (read path offset buffer) := by
  have hfile : Only Call.IsQuery (withFile path .readOnly (readFrom offset buffer)) :=
    only_withFile rfl (readFrom_only offset buffer) fun file => trivial
  refine (only_requirePath path).bind fun _ => ?_
  refine Only.bind (only_requestOr trivial) fun entry => ?_
  exact Only.ite (.bind (only_throw _) fun _ => hfile) hfile

/-- A size only asks. -/
theorem size_only (path : String) : Only Call.IsQuery (size path) := by
  refine (only_requirePath path).bind fun _ => ?_
  exact Only.bind (only_requestOr trivial) fun entry => only_pure _

/-- Writing through a handle removes nothing. -/
theorem writeAll_only (file : FileHandle) (data : Bytes) :
    Only Call.BuildsMounted (writeAll file data) := by
  refine Only.bind (only_request ⟨fun _ => not_false, not_false⟩) fun written => ?_
  exact Only.ite (.bind (only_throw _) fun _ => only_pure _) (only_pure _)

/-- Checking a size only asks. -/
theorem verifySize_only (path : String) (desired : Nat) :
    Only Call.IsQuery (verifySize path desired) := by
  refine Only.bind (size_only path).observe fun result => ?_
  cases result with
  | error e => exact only_throw _
  | ok actual => exact Only.ite (only_throw _) (only_pure _)

/-- A write truncates and fills its file, and removes nothing. -/
theorem write_only (path : String) (data : Bytes) (config : Config) :
    Only Call.BuildsMounted (write path data config) := by
  refine (only_requirePath path).bind fun _ => ?_
  refine Only.bind ?_ fun written => ?_
  · refine only_withFile ⟨fun _ => not_false, not_false⟩ (fun file => ?_) fun file =>
      ⟨fun _ => not_false, not_false⟩
    exact Only.bind (only_request ⟨fun _ => not_false, not_false⟩) fun _ =>
      writeAll_only file data
  · have hcheck := (verifySize_only path data.length).mono fun c hc => hc.buildsMounted
    exact Only.ite (hcheck.bind fun _ => only_pure _) (only_pure _)

/-- An append fills its file, and removes nothing. -/
theorem append_only (path : String) (data : Bytes) :
    Only Call.BuildsMounted (append path data) := by
  refine (only_requirePath path).bind fun _ => ?_
  exact only_withFile ⟨fun _ => not_false, not_false⟩ (fun file => writeAll_only file data)
    fun file => ⟨fun _ => not_false, not_false⟩

/-- Deleting makes one call. -/
theorem delete_only {allowed : {γ : Type} → Call γ → Prop} {path : String}
    (h : allowed (.unlink path)) : Only allowed (delete path) :=
  (only_requirePath path).bind fun _ => only_requestOr h

end File

/-! ### Digests -/

namespace Digest

/-- Feeding an engine only reads. -/
theorem feed_only (file : FileHandle) (path : String) {chunk : Nat} (hchunk : 0 < chunk)
    (remaining : Nat) (acc : Accumulator) :
    Only Call.IsQuery (feed file path chunk hchunk remaining acc) := by
  induction remaining using Nat.strongRecOn generalizing acc with
  | ind remaining ih =>
    rw [feed]
    split
    · exact only_pure _
    · next hremaining =>
      have hless : remaining - min remaining chunk < remaining := by omega
      refine Only.bind (only_requestOr trivial) fun bytes => ?_
      exact Only.ite (.bind (only_throw _) fun _ => ih _ hless _) (ih _ hless _)

/-- A digest only asks. -/
theorem ofFile_only [Allocator] (path : String) (size : Nat) (algorithm : Algorithm)
    (config : Config) : Only Call.IsQuery (ofFile path size algorithm config) := by
  refine (only_requirePath path).bind fun _ => ?_
  refine only_withFile rfl (fun file => ?_) fun file => trivial
  rw [stream]
  split
  · next hchunk =>
    have hfeed := Only.bind (feed_only file path hchunk size (.start algorithm)) fun acc =>
      only_pure acc.finish
    exact Only.ite (.bind (only_throw _) fun _ => hfeed) hfeed
  · exact Only.ite (only_throw _) (only_pure _)

/-- A digest into a cell only asks. -/
theorem intoCell_only [Allocator] (path : String) (size : Nat) (algorithm : Algorithm)
    (config : Config) (cell : Digest) :
    ((intoCell path size algorithm config).run cell).Only Call.IsQuery := by
  refine Program.Only.bind trivial fun start => ?_
  have hdigest := ofFile_only path size algorithm config
  refine Program.Only.bind (Program.Only.bind hdigest fun _ => trivial) fun result => ?_
  obtain ⟨e | value, cell⟩ := result
  · trivial
  · trivial

end Digest

/-! ### Directories -/

namespace Directory

/-- Walking through a directory only asks. -/
theorem enumerate_only {γ : Type} (dir : String) (visit : γ → Entry → ForInStep γ) (start : γ) :
    (enumerate dir visit start).Only Call.IsQuery := by
  refine ⟨trivial, ?_⟩
  rintro (e | handle)
  · trivial
  · exact ⟨trivial, fun acc error => ⟨trivial, fun _ => trivial⟩⟩

/-- A search only asks. -/
theorem find_only [Allocator] (dir name : String) (kind : EntryKind) :
    (find dir name kind).Only Call.IsQuery := by
  rw [find]
  split
  · trivial
  · refine Program.Only.bind (enumerate_only dir _ _) fun counted => ?_
    dsimp only
    split
    · trivial
    · exact Program.Only.bind (enumerate_only dir _ _) fun found => trivial

/-- The check for an empty path makes no call at all. -/
theorem requireDirectory_only (dir : String) : Only Call.IsQuery (requireDirectory dir) :=
  Only.ite (only_throw _) (only_pure _)

/-- Collecting from a directory only asks. -/
theorem collect_only {γ : Type} (dir : String) (visit : γ → Entry → γ) (start : γ) :
    Only Call.IsQuery (collect dir visit start) := by
  refine Only.bind (only_ofProgram (enumerate_only dir _ _)) fun result => ?_
  obtain ⟨acc, _ | e⟩ := result
  · exact only_pure _
  · exact only_throw _

/-- A listing only asks. -/
theorem list_only (dir : String) : Only Call.IsQuery (list dir) :=
  (requireDirectory_only dir).bind fun _ => collect_only dir _ _

/-- Looking for the one match only asks. -/
theorem uniqueSize_only [Allocator] (dir name : String) (kind : EntryKind) :
    Only Call.IsQuery (uniqueSize dir name kind) := by
  refine (requireDirectory_only dir).bind fun _ => ?_
  refine Only.bind (only_ofProgram (find_only dir name kind)) fun found => ?_
  split
  · exact only_throw _
  · exact only_pure _
  · exact only_throw _

/-- Looking for the greatest number only asks. -/
theorem lastHistoryNumber_only (dir stem : String) :
    Only Call.IsQuery (lastHistoryNumber dir stem) := by
  have hcollect := collect_only dir
    (fun highest entry => max highest ((historyNumber? stem entry.name).getD 0)) 0
  exact Only.ite (.bind (only_throw _) fun _ => hcollect) hcollect

/-- Making a stage removes nothing. -/
theorem makeStage_only (path : String) : Only Call.BuildsMounted (makeStage path) := by
  refine Only.bind (only_attempt ⟨fun _ => not_false, not_false⟩) fun answer => ?_
  cases answer with
  | error e => exact only_request ⟨fun _ => not_false, not_false⟩
  | ok entry => exact Only.ite (only_throw _) (only_pure _)

/-- Making a path removes nothing. -/
theorem makePath_only (path : String) (recursive : Bool) (config : Config) :
    Only Call.BuildsMounted (makePath path recursive config) := by
  refine Only.bind (only_ofExcept _) fun clean => ?_
  refine Only.bind (only_attempt ⟨fun _ => not_false, not_false⟩) fun answer => ?_
  have hstages : ∀ stages : List String, Only Call.BuildsMounted (stages.forM makeStage) := by
    intro stages
    induction stages with
    | nil => exact only_pure _
    | cons stage stages ih => exact (makeStage_only stage).bind fun _ => ih
  cases answer with
  | error e => exact Only.ite (.bind (only_throw _) fun _ => hstages _) (hstages _)
  | ok entry => exact Only.ite (only_throw _) (only_pure _)

/-- The unlinks of a bulk delete create nothing. -/
theorem deleteEach_only (dir : String) (config : Config) (entries : List Entry) (deleted : Nat) :
    Only Call.ClearsMounted (deleteEach dir config entries deleted) := by
  induction entries generalizing deleted with
  | nil => exact only_pure _
  | cons entry entries ih =>
    rw [deleteEach]
    split
    · exact only_throw _
    · exact only_pure _
    · next path hresolve =>
      refine Only.bind (only_attempt
        ⟨⟨fun _ => not_false, Path.ne_root_of_resolve hresolve⟩, not_false⟩) fun answer => ?_
      cases answer with
      | error e => exact only_pure _
      | ok => exact ih (deleted + 1)

/-- A bulk delete asks and removes, and creates nothing. -/
theorem deleteMatching_only [Allocator] (dir name : String) (config : Config) :
    Only Call.ClearsMounted (deleteMatching dir name config) := by
  have hquery : ∀ {γ : Type} (c : Call γ), c.IsQuery → c.ClearsMounted :=
    fun c hc => hc.clearsMounted
  refine Only.bind ((requireDirectory_only dir).mono hquery) fun _ => ?_
  refine Only.bind (only_ofProgram ((find_only dir name .file).mono hquery)) fun found => ?_
  exact deleteEach_only dir config found 0

end Directory

/-! ### Requests -/

namespace FileRequest

/-- The request deletes. -/
def Deletes : FileRequest → Prop
  | delete _ => True
  | _ => False

/-- The request asks for something that changes no entry. -/
def IsQuery : FileRequest → Prop
  | read _ _ _ => True
  | size _ => True
  | _ => False

end FileRequest

namespace Request

/-- The request asks for something that removes entries. -/
def Deletes : Request → Prop
  | file request => request.Deletes
  | deleteIn _ _ => True
  | deleteMatching _ _ => True
  | _ => False

/-- The request asks for something that changes no entry. -/
def IsQuery : Request → Prop
  | file request => request.IsQuery
  | writeIn _ _ _ => False
  | appendIn _ _ _ => False
  | deleteIn _ _ => False
  | makePath _ _ => False
  | make _ _ => False
  | deleteMatching _ _ => False
  | _ => True

/-- What asks for no change, makes queries only. -/
theorem operation_isQuery [Allocator] (config : Config) {request : Request} (h : request.IsQuery) :
    Only Call.IsQuery (request.operation config) := by
  cases request with
  | file request =>
    cases request with
    | read path offset buffer => exact (File.read_only path offset buffer).map _
    | size path => exact (File.size_only path).map _
    | _ => exact h.elim
  | readIn dir name buffer =>
    exact (only_inDirectory fun path _ => File.read_only path 0 buffer).map _
  | sizeIn dir name => exact (only_inDirectory fun path _ => File.size_only path).map _
  | digest path size algorithm => exact (Digest.ofFile_only path size algorithm config).map _
  | digestIn dir name size algorithm =>
    exact (only_inDirectory fun path _ => Digest.ofFile_only path size algorithm config).map _
  | digestInto path size algorithm cell =>
    exact (Digest.intoCell_only path size algorithm config cell).bind fun _ => trivial
  | find dir name kind => exact (only_ofProgram (Directory.find_only dir name kind)).map _
  | uniqueSize dir name kind => exact (Directory.uniqueSize_only dir name kind).map _
  | list dir => exact (Directory.list_only dir).map _
  | lastHistoryNumber dir stem => exact (Directory.lastHistoryNumber_only dir stem).map _
  | _ => exact h.elim

/-- What does not delete, removes no entry. -/
theorem operation_builds_only [Allocator] (config : Config) {request : Request}
    (h : ¬request.Deletes) :
    Only Call.BuildsMounted (request.operation config) := by
  by_cases hquery : request.IsQuery
  · exact (operation_isQuery config hquery).mono fun c hc => hc.buildsMounted
  · cases request with
    | file request =>
      cases request with
      | write path data => exact (File.write_only path data config).map _
      | append path data => exact (File.append_only path data).map _
      | delete path => exact absurd trivial h
      | _ => exact absurd trivial hquery
    | writeIn dir name data =>
      exact (only_inDirectory fun path _ => File.write_only path data config).map _
    | appendIn dir name data =>
      exact (only_inDirectory fun path _ => File.append_only path data).map _
    | deleteIn dir name => exact absurd trivial h
    | makePath path recursive => exact (Directory.makePath_only path recursive config).map _
    | make dir name =>
      exact (only_inDirectory fun path _ => Directory.makePath_only path false config).map _
    | deleteMatching dir name => exact absurd trivial h
    | _ => exact absurd trivial hquery

/-- A request that is no delete removes nothing. -/
theorem operation_builds [Allocator] (config : Config) {request : Request} (h : ¬request.Deletes) :
    Only Call.Builds (request.operation config) :=
  (operation_builds_only config h).mono fun _ hc => hc.1

/-- What deletes, makes calls that clear and removals of the path that it names. -/
theorem operation_deletes_only [Allocator] {allowed : {γ : Type} → Call γ → Prop} (config : Config)
    {request : Request} (h : request.Deletes)
    (hclears : ∀ {γ : Type} (c : Call γ), c.ClearsMounted → allowed c)
    (hremoves : allowed (.unlink request.path)) : Only allowed (request.operation config) := by
  cases request with
  | file request =>
    cases request with
    | delete path => exact (File.delete_only hremoves).map _
    | _ => exact h.elim
  | deleteIn dir name =>
    refine Only.map _ (only_inDirectory fun path hresolve => File.delete_only (hclears _ ?_))
    exact ⟨⟨fun _ => not_false, Path.ne_root_of_resolve hresolve⟩, not_false⟩
  | deleteMatching dir name =>
    exact ((Directory.deleteMatching_only dir name config).mono hclears).map _
  | _ => exact h.elim

/-- What deletes, creates no entry, and spares the root unless it is asked to delete it. -/
theorem operation_clears [Allocator] (config : Config) {request : Request} (h : request.Deletes)
    (hpath : request.path ≠ "/") : Only Call.Clears (request.operation config) :=
  operation_deletes_only config h (fun _ hc => hc.1) ⟨fun _ => not_false, hpath⟩

/-- **No operation mounts the volume.** -/
theorem operation_not_mounts [Allocator] (config : Config) (request : Request) :
    Only (fun c => ¬c.Mounts) (request.operation config) := by
  by_cases h : request.Deletes
  · exact operation_deletes_only config h (fun _ hc => hc.2) not_false
  · exact (operation_builds_only config h).mono fun _ hc => hc.2

end Request

/-! ### Commands -/

/-- The command asks for something that changes no entry. -/
def Command.IsQuery : Command → Prop
  | write _ _ => False
  | append _ _ => False
  | rm _ => False
  | rmall _ _ => False
  | mkdir _ _ => False
  | _ => True

namespace Reply

/-- Showing a file only asks. -/
theorem fileText_only (path : String) (offset : Nat) : Only Call.IsQuery (fileText path offset) :=
  (File.size_only path).bind fun _ => (File.read_only path offset _).bind fun _ => only_pure _

/-- Showing a digest only asks. -/
theorem digestText_only [Allocator] (algorithm : Algorithm) (path : String) (size : Option Nat)
    (config : Config) : Only Call.IsQuery (digestText algorithm path size config) := by
  have hdigest (size : Nat) : Only Call.IsQuery (do
      return (← Digest.ofFile path size algorithm config).toHex) :=
    (Digest.ofFile_only path size algorithm config).bind fun _ => only_pure _
  cases size with
  | none => exact (File.size_only path).bind hdigest
  | some size => exact (only_pure size).bind hdigest

/-- A command that is a query only asks. -/
theorem answer_isQuery [Allocator] (config : Config) {command : Command} (h : command.IsQuery) :
    Only Call.IsQuery (answer config command) := by
  cases command with
  | ls dir => exact (Directory.list_only dir).bind fun _ => only_pure _
  | find dir name kind =>
    exact (only_ofProgram (Directory.find_only dir name kind)).bind fun _ => only_pure _
  | read path offset => exact fileText_only path offset
  | size path => exact (File.size_only path).bind fun _ => only_pure _
  | unique dir name => exact (Directory.uniqueSize_only dir name .file).bind fun _ => only_pure _
  | digest algorithm path size => exact digestText_only algorithm path size config
  | history dir stem => exact (Directory.lastHistoryNumber_only dir stem).bind fun _ => only_pure _
  | quit => exact only_pure _
  | usage usage => exact only_pure _
  | unknown line => exact only_pure _
  | _ => exact h.elim

/-- No command mounts: only the start of the shell does. -/
theorem answer_not_mounts [Allocator] (config : Config) (command : Command) :
    Only (fun c => ¬c.Mounts) (answer config command) := by
  by_cases h : command.IsQuery
  · exact (answer_isQuery config h).mono fun _ hc => hc.not_mounts
  · cases command with
    | write path data =>
      exact ((File.write_only path _ config).mono fun _ hc => hc.2).bind fun _ => only_pure _
    | append path data =>
      exact ((File.append_only path _).mono fun _ hc => hc.2).bind fun _ => only_pure _
    | rm path => exact (File.delete_only not_false).bind fun _ => only_pure _
    | rmall dir name =>
      exact ((Directory.deleteMatching_only dir name config).mono fun _ hc => hc.2).bind
        fun _ => only_pure _
    | mkdir path recursive =>
      exact ((Directory.makePath_only path recursive config).mono fun _ hc => hc.2).bind
        fun _ => only_pure _
    | _ => exact absurd trivial h

/-- The shell makes the calls of its answer. -/
theorem ofCommand_only [Allocator] {allowed : {γ : Type} → Call γ → Prop} {config : Config}
    {command : Command}
    (h : Only allowed (answer config command)) : (ofCommand config command).Only allowed := by
  cases command with
  | quit => trivial
  | _ => exact Program.Only.bind h fun _ => trivial

/-- What a command asks for without a change, makes queries only. -/
theorem ofCommand_isQuery [Allocator] (config : Config) {command : Command} (h : command.IsQuery) :
    (ofCommand config command).Only Call.IsQuery :=
  ofCommand_only (answer_isQuery config h)

/-- **No command mounts the volume.** -/
theorem ofCommand_not_mounts [Allocator] (config : Config) (command : Command) :
    (ofCommand config command).Only fun c => ¬c.Mounts :=
  ofCommand_only (answer_not_mounts config command)

end Reply

/-! ### Gates -/

/-- Mounting through a gate removes no entry. -/
theorem MountState.mount_builds (mountPoint : String) (state : MountState) :
    ((MountState.mount mountPoint).run state).Only Call.Builds := by
  obtain ⟨mounted⟩ := state
  cases mounted with
  | true => trivial
  | false =>
    refine ⟨fun _ => not_false, ?_⟩
    rintro (e | _)
    · trivial
    · exact ⟨fun _ => not_false, fun _ => trivial⟩

end FlashVolume

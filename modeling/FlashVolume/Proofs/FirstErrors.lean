import FlashVolume.Proofs.Request
import FlashVolume.Proofs.Storage.Running
import FlashVolume.Proofs.Storage.Runs
/-!
# The error that is reported

Section 7 of the specification: an earlier error is never masked by that of a `close`.

Four operations open a file: `read`, `write`, `append` and `digest`. Between `open` and `close` they
seek, read, truncate and write, and the first of these calls that goes wrong decides the answer:

| what goes wrong | the answer |
| --- | --- |
| a call fails | its error, as `Error.ofStorage` has it |
| a write takes another number of bytes than it was given | `diskFull` |
| a read of a digest fails, or answers another number of bytes | `ioError` |

`FileAccess.fault?` is this table. An operation whose work `Reports` its faults answers with the
first one, whatever `close` does. A failed `close` counts after that, and the size check of `write`
is made only behind a `close` that succeeded.

One more error stands between the two: a digest that is to read in chunks of no bytes, or whose
buffer the machine does not give, is refused when the file is already open, and before any of its
bytes are read.
-/

namespace FlashVolume

open Operation

namespace Event

/-- The call was answered with a success. -/
def Succeeds (event : Event) : Prop :=
  ∃ a, event.answer = .ok a

/-- The event is work on an open file. -/
def IsWorkOn (file : FileHandle) : Event → Prop
  | ⟨.seek f _, _⟩ => f = file
  | ⟨.read f _, _⟩ => f = file
  | ⟨.truncate f _, _⟩ => f = file
  | ⟨.write f _, _⟩ => f = file
  | _ => False

end Event

/-- An operation that opens a file. -/
inductive FileAccess where
  | read (path : String) (offset : Nat) (buffer : Bytes)
  | write (path : String) (data : Bytes)
  | append (path : String) (data : Bytes)
  | digest (path : String) (size : Nat) (algorithm : Algorithm)
deriving DecidableEq, Repr

namespace FileAccess

/-- The file that is opened. -/
def path : FileAccess → String
  | read path _ _ => path
  | write path _ => path
  | append path _ => path
  | digest path _ _ => path

/-- The operation as a request. -/
def toRequest : FileAccess → Request
  | read path offset buffer => .file (.read path offset buffer)
  | write path data => .file (.write path data)
  | append path data => .file (.append path data)
  | digest path size algorithm => .digest path size algorithm

/-- What a read of the open file that goes wrong is reported as. -/
def readFault? (length : Nat) : FileAccess → Except StorageError Bytes → Option Error
  | digest path _ _, .error e => some (.ioError s!"read {path}: {e.message}")
  | digest path _ _, .ok bytes =>
    if bytes.length = length then none
    else some (.ioError s!"short read of {path} ({bytes.length} of {length} bytes)")
  | _, .error e => some (.ofStorage e)
  | _, .ok _ => none

/-- What a write to the open file that goes wrong is reported as. -/
def writeFault? (length : Nat) : Except StorageError Nat → Option Error
  | .error e => some (.ofStorage e)
  | .ok written => if written = length then none else some (.diskFull written length)

/-- What a call that answers nothing is reported as when it fails. -/
def callFault? : Except StorageError Unit → Option Error
  | .error e => some (.ofStorage e)
  | .ok () => none

/-- What an event is reported as, if something went wrong. -/
def fault? (access : FileAccess) : Event → Option Error
  | ⟨.seek _ _, answer⟩ => callFault? answer
  | ⟨.truncate _ _, answer⟩ => callFault? answer
  | ⟨.read _ length, answer⟩ => access.readFault? length answer
  | ⟨.write _ data, answer⟩ => writeFault? data.length answer
  | _ => none

/-- Why the operation is refused when the file is open, if it is. -/
def refusal? [Allocator] (config : Config) : FileAccess → Option Error
  | digest _ size algorithm =>
    let chunk := algorithm.chunkSize config
    if chunk = 0 ∧ 0 < size then some (.invalidInput "zero chunk size")
    else if Allocator.grantsBytes (min size chunk) then none
    else some (.outOfMemory s!"{min size chunk} byte digest buffer")
  | _ => none

/-- The size that is looked for after the file has been closed, if one is. -/
def desired? (config : Config) : FileAccess → Option Nat
  | write _ data => if config.checksSize then some data.length else none
  | _ => none

/-- Work on the file without a fault is made of successes. -/
theorem succeeds_of_fault?_eq_none {access : FileAccess} {event : Event} {file : FileHandle}
    (hwork : event.IsWorkOn file) (h : access.fault? event = none) : event.Succeeds := by
  obtain ⟨c, _ | a⟩ := event
  · cases c with
    | seek => cases h
    | truncate => cases h
    | write => cases h
    | read => cases access <;> cases h
    | _ => exact hwork.elim
  · exact ⟨a, rfl⟩

end FileAccess

/-! ### Work on an open file -/

namespace Operation

variable {α β : Type} {file : FileHandle} {fault? : Event → Option Error} {refusal? : Option Error}

/-- The operation does nothing but work on the file, and ends with its first fault, or else with
the refusal; if there is neither it succeeds. -/
def Reports (file : FileHandle) (fault? : Event → Option Error) (refusal? : Option Error)
    (p : Operation α) : Prop :=
  ∀ events result, p.Makes events result → (∀ event ∈ events, event.IsWorkOn file) ∧
    match (events.findSome? fault?).or refusal? with
    | some e => result = .error e
    | none => ∃ a, result = .ok a

/-- Nothing to do reports no error. -/
theorem reports_pure (a : α) : Reports file fault? none (pure a : Operation α) := by
  intro events result h
  obtain ⟨rfl, rfl⟩ := makes_pure h
  exact ⟨List.forall_mem_nil _, a, rfl⟩

/-- Work that refuses reports its refusal. -/
theorem reports_throw (e : Error) : Reports file fault? (some e) (throw e : Operation α) := by
  intro events result h
  obtain ⟨rfl, rfl⟩ := makes_throw h
  exact ⟨List.forall_mem_nil _, rfl⟩

/-- What is made of a result does not change the error that is reported. -/
theorem Reports.map {p : Operation α} (hp : Reports file fault? refusal? p) (f : α → β) :
    Reports file fault? refusal? (f <$> p) := by
  intro events result h
  obtain ⟨answer, hmakes, rfl⟩ := makes_map h
  obtain ⟨hwork, hanswer⟩ := hp events answer hmakes
  refine ⟨hwork, ?_⟩
  revert hanswer
  cases (events.findSome? fault?).or refusal? with
  | some e => rintro rfl; rfl
  | none => rintro ⟨a, rfl⟩; exact ⟨f a, rfl⟩

/-- **A call is reported if it fails,** and what follows it stops at an answer that is a fault. -/
theorem reports_call {c : Call β} {fault : StorageError → Error} {next : β → Operation α}
    (hwork : ∀ answer, Event.IsWorkOn file ⟨c, answer⟩)
    (hfailed : ∀ e, fault? ⟨c, .error e⟩ = some (fault e))
    (hnext : ∀ b, match fault? ⟨c, .ok b⟩ with
      | some e => next b = throw e
      | none => Reports file fault? none (next b)) :
    Reports file fault? none (requestOr fault c >>= next) := by
  intro events result h
  rcases makes_bind h with ⟨e, hcall, rfl⟩ | ⟨before, after, b, rfl, hcall, hrest⟩
  · obtain ⟨e' | b, rfl, hanswer⟩ := makes_requestOr hcall
    · cases hanswer
      refine ⟨List.forall_mem_singleton.2 (hwork _), ?_⟩
      rw [List.findSome?_singleton, hfailed]
      rfl
    · cases hanswer
  · obtain ⟨e | b, rfl, hanswer⟩ := makes_requestOr hcall
    · cases hanswer
    · cases hanswer
      have hb := hnext b
      rw [List.singleton_append, List.findSome?_cons]
      cases hfault : fault? ⟨c, .ok b⟩ with
      | some e =>
        rw [hfault] at hb
        rw [hb] at hrest
        obtain ⟨rfl, rfl⟩ := makes_throw hrest
        exact ⟨List.forall_mem_singleton.2 (hwork _), rfl⟩
      | none =>
        rw [hfault] at hb
        obtain ⟨hafter, hresult⟩ := hb after result hrest
        exact ⟨List.forall_mem_cons.2 ⟨hwork _, hafter⟩, hresult⟩

end Operation

namespace FileAccess

variable {file : FileHandle}

/-- Reading reports the first of its seek and its read that fails. -/
theorem reports_readFrom (path : String) (offset : Nat) (buffer : Bytes) :
    Reports file (read path offset buffer).fault? none (File.readFrom offset buffer file) := by
  have hread : Reports file (read path offset buffer).fault? none (do
      let bytes ← request (.read file buffer.length)
      return File.fill buffer bytes) :=
    reports_call (fun _ => rfl) (fun _ => rfl) fun bytes => reports_pure _
  have hseek : Reports file (read path offset buffer).fault? none (do
      request (.seek file offset)
      let bytes ← request (.read file buffer.length)
      return File.fill buffer bytes) :=
    reports_call (fun _ => rfl) (fun _ => rfl) fun _ => hread
  rw [File.readFrom]
  split
  · exact hseek
  · exact hread

/-- A write reports how many bytes it took, if these are not all. -/
theorem reports_writeAll (access : FileAccess) (data : Bytes) :
    Reports file access.fault? none (File.writeAll file data) := by
  refine reports_call (fun _ => rfl) (fun _ => rfl) fun written => ?_
  have hfault : access.fault? ⟨.write file data, .ok written⟩ =
    if written = data.length then none else some (.diskFull written data.length) := rfl
  rw [hfault]
  by_cases hlength : written = data.length
  · rw [if_pos hlength, if_neg (Decidable.not_not.2 hlength)]
    exact reports_pure written
  · rw [if_neg hlength, if_pos hlength]
    rfl

/-- Writing reports the first of its truncate and its write that fails. -/
theorem reports_write (path : String) (data : Bytes) :
    Reports file (write path data).fault? none (do
      request (.truncate file data.length)
      File.writeAll file data) :=
  reports_call (fun _ => rfl) (fun _ => rfl) fun _ => reports_writeAll _ data

/-- A digest reports the first read that fails, however many chunks came before. -/
theorem reports_feed (path : String) (size : Nat) (algorithm : Algorithm) {chunk : Nat}
    (hchunk : 0 < chunk) (remaining : Nat) (acc : Accumulator) :
    Reports file (digest path size algorithm).fault? none
      (Digest.feed file path chunk hchunk remaining acc) := by
  -- By induction on the bytes that are still to be read, which each chunk makes fewer.
  induction remaining using Nat.strongRecOn generalizing acc with
  | ind remaining ih =>
    rw [Digest.feed]
    split
    · exact reports_pure _
    · next hremaining =>
      have hless : remaining - min remaining chunk < remaining := by omega
      refine reports_call (fun _ => rfl) (fun _ => rfl) fun bytes => ?_
      have hfault : (digest path size algorithm).fault?
          ⟨.read file (min remaining chunk), .ok bytes⟩ =
        if bytes.length = min remaining chunk then none
        else some (.ioError
          s!"short read of {path} ({bytes.length} of {min remaining chunk} bytes)") := rfl
      rw [hfault]
      by_cases hlength : bytes.length = min remaining chunk
      · rw [if_pos hlength, if_neg (Decidable.not_not.2 hlength)]
        exact ih _ hless _
      · rw [if_neg hlength, if_pos hlength]
        rfl

/-- A digest is refused before it reads, or it reports its reads. -/
theorem reports_stream [Allocator] (config : Config) (path : String) (size : Nat)
    (algorithm : Algorithm) :
    Reports file (digest path size algorithm).fault?
      ((digest path size algorithm).refusal? config)
      (Digest.stream file path size (algorithm.chunkSize config) algorithm) := by
  rw [refusal?, Digest.stream]
  dsimp only
  by_cases hchunk : 0 < algorithm.chunkSize config
  · rw [dif_pos hchunk, if_neg (by omega)]
    by_cases hbuffer : Allocator.grantsBytes (min size (algorithm.chunkSize config)) = true
    · rw [if_pos hbuffer, if_neg (by simp [hbuffer]), bind_pure_comp]
      exact (reports_feed path size algorithm hchunk size _).map Accumulator.finish
    · rw [if_neg hbuffer, if_pos (by simpa using hbuffer)]
      exact reports_throw _
  · rw [dif_neg hchunk]
    by_cases hsize : 0 < size
    · rw [if_pos hsize, if_pos (by omega)]
      exact reports_throw _
    · obtain rfl := Nat.eq_zero_of_not_pos hsize
      rw [if_neg hsize, if_neg (by omega), Nat.zero_min, if_pos Allocator.grantsBytes_zero]
      exact reports_pure _

/-! ### Whole operations -/

/-- What the answer of an operation that has opened its file tells of the calls it made: `before`
the file was opened, `during` the work on it, and `after` it was closed. -/
structure Account [Allocator] {α : Type} (access : FileAccess) (config : Config) (mode : OpenMode)
    (file : FileHandle) (events before during : List Event) (closed : Except StorageError Unit)
    (after : List Event) (result : Except Error α) : Prop where
  events_eq : events =
    before ++ ⟨.open access.path mode, .ok file⟩ :: during ++ ⟨.close file, closed⟩ :: after
  work : ∀ event ∈ during, event.IsWorkOn file
  /-- The first fault is the answer, whatever `close` was answered. -/
  fault : ∀ e, during.findSome? access.fault? = some e → result = .error e
  refusal : during.findSome? access.fault? = none →
    ∀ e, access.refusal? config = some e → result = .error e
  /-- A failed `close` is the answer if there is nothing else to report. -/
  close : during.findSome? access.fault? = none → access.refusal? config = none →
    ∀ e, closed = .error e → result = .error (.ioError s!"close {access.path}: {e.message}")
  /-- Nothing is done behind a `close` that failed. -/
  later : after ≠ [] → closed = .ok ()
  success : ∀ a, result = .ok a → ∀ event ∈ events, event.Succeeds

namespace Account

variable {α β : Type} {access : FileAccess} {config : Config} {mode : OpenMode}
  {file : FileHandle} {events before during after : List Event}
  {closed : Except StorageError Unit} {result : Except Error α}

/-- A result in another form. -/
theorem map [Allocator]
    (h : access.Account config mode file events before during closed after result) (f : α → β) :
    access.Account config mode file events before during closed after (result.map f) where
  events_eq := h.events_eq
  work := h.work
  fault e he := by rw [h.fault e he]; rfl
  refusal hnone e he := by rw [h.refusal hnone e he]; rfl
  close hnone hrefusal e he := by rw [h.close hnone hrefusal e he]; rfl
  later := h.later
  success b hb := by
    cases result with
    | error e => cases hb
    | ok a => exact h.success a rfl

/-- A call that succeeded before. -/
theorem cons [Allocator]
    (h : access.Account config mode file events before during closed after result) {event : Event}
    (hevent : event.Succeeds) :
    access.Account config mode file (event :: events) (event :: before) during closed after
      result where
  events_eq := by rw [h.events_eq]; rfl
  work := h.work
  fault := h.fault
  refusal := h.refusal
  close := h.close
  later := h.later
  success a ha := List.forall_mem_cons.2 ⟨hevent, h.success a ha⟩

/-- More calls after a success. -/
theorem append [Allocator] {a : α}
    (h : access.Account config mode file events before during closed [] (.ok a))
    {result' : Except Error β} (hafter : ∀ b, result' = .ok b → ∀ event ∈ after, event.Succeeds) :
    access.Account config mode file (events ++ after) before during closed after result' where
  events_eq := by rw [h.events_eq]; simp
  work := h.work
  fault e he := nomatch h.fault e he
  refusal hnone e he := nomatch h.refusal hnone e he
  close hnone hrefusal e he := nomatch h.close hnone hrefusal e he
  later _ := by
    have hclose : Event.Succeeds ⟨.close file, closed⟩ :=
      h.success a rfl _ (by rw [h.events_eq]; simp)
    obtain ⟨⟨⟩, hclosed⟩ := hclose
    exact hclosed
  success b hb := List.forall_mem_append.2 ⟨h.success a rfl, hafter b hb⟩

end Account

/-- What opened the file is none of the other calls. -/
theorem mem_of_mem_cons {β : Type} {c : Call β} {path : String} {mode : OpenMode}
    {file : FileHandle} {answer : Except StorageError β} {events : List Event}
    (h : ⟨.open path mode, .ok file⟩ ∈ Event.mk c answer :: events) (hc : c.name ≠ .open) :
    ⟨.open path mode, .ok file⟩ ∈ events := by
  rcases List.mem_cons.1 h with heq | hmem
  · exact absurd (congrArg (fun event => event.call.name) heq).symm hc
  · exact hmem

/-- **Work that reports its faults accounts for the whole of `withFile`.** -/
theorem account_withFile [Allocator] {α : Type} (access : FileAccess) (config : Config)
    {mode : OpenMode} {work : FileHandle → Operation α} {events : List Event}
    {result : Except Error α}
    (h : (File.withFile access.path mode work).Makes events result)
    (hwork : ∀ file, Reports file access.fault? (access.refusal? config) (work file))
    {path : String} {mode' : OpenMode} {file : FileHandle}
    (hopen : ⟨.open path mode', .ok file⟩ ∈ events) :
    ∃ during closed, access.Account config mode file events [] during closed [] result := by
  rcases makes_withFile h with ⟨e, rfl, rfl⟩ | ⟨opened, during, worked, closed, rfl, hmakes, rfl⟩
  · cases List.mem_singleton.1 hopen
  obtain ⟨huses, hreports⟩ := hwork opened during worked hmakes
  have hsame : opened = file := by
    rcases List.mem_append.1 hopen with hmem | hmem
    · rcases List.mem_cons.1 hmem with heq | hmem
      · cases heq
        rfl
      · exact (huses _ hmem).elim
    · exact absurd (mem_of_mem_cons hmem nofun) List.not_mem_nil
  subst hsame
  have hfault : ∀ e, (during.findSome? access.fault?).or (access.refusal? config) = some e →
      File.afterClose access.path worked closed = .error e := by
    intro e he
    rw [he] at hreports
    subst hreports
    rfl
  refine ⟨during, closed, rfl, huses, ?_, ?_, ?_, fun hnil => absurd rfl hnil, ?_⟩
  · intro e he
    exact hfault e (by rw [he]; rfl)
  · intro hnone e he
    exact hfault e (by rw [hnone, he]; rfl)
  · rintro hnone hrefusal e rfl
    rw [hnone, hrefusal] at hreports
    obtain ⟨a, rfl⟩ := hreports
    rfl
  · intro a ha
    have hnone : during.findSome? access.fault? = none := by
      cases hfirst : during.findSome? access.fault? with
      | none => rfl
      | some e => rw [hfault e (by rw [hfirst]; rfl)] at ha; cases ha
    have hduring : ∀ event ∈ during, event.Succeeds := fun event hevent =>
      succeeds_of_fault?_eq_none (huses event hevent)
        (List.findSome?_eq_none_iff.1 hnone event hevent)
    have hclosed : closed = .ok () := by
      cases closed with
      | ok => rfl
      | error e => cases worked <;> cases ha
    subst hclosed
    refine List.forall_mem_append.2 ⟨List.forall_mem_cons.2 ⟨⟨_, rfl⟩, hduring⟩, ?_⟩
    exact List.forall_mem_singleton.2 ⟨(), rfl⟩

section Operations

variable {path : String} (config : Config) {events : List Event} {p : String} {mode : OpenMode}
  {file : FileHandle}

/-- The account of a read: first the open, then its seek and read, then the close. -/
theorem account_read [Allocator] {offset : Nat} {buffer : Bytes} {result : Except Error File.Filled}
    (h : (File.read path offset buffer).Makes events result)
    (hopen : ⟨.open p mode, .ok file⟩ ∈ events) :
    ∃ before during closed, (read path offset buffer).Account config .readOnly file events before
      during closed [] result := by
  rw [File.read, requirePath_bind] at h
  split at h
  · obtain ⟨rfl, -⟩ := makes_throw h
    cases hopen
  rcases makes_bind h with ⟨e, hstat, rfl⟩ | ⟨first, rest, entry, rfl, hstat, hrest⟩
  · obtain ⟨answer, rfl, -⟩ := makes_requestOr hstat
    exact absurd (mem_of_mem_cons hopen nofun) List.not_mem_nil
  obtain ⟨_ | found, rfl, hanswer⟩ := makes_requestOr hstat
  · cases hanswer
  replace hopen := mem_of_mem_cons hopen nofun
  by_cases hdir : entry.kind = .directory
  · rw [if_pos hdir] at hrest
    obtain ⟨rfl, -⟩ := makes_throw hrest
    cases hopen
  · rw [if_neg hdir] at hrest
    obtain ⟨during, closed, haccount⟩ := account_withFile
      (read path offset buffer) config hrest (fun _ => reports_readFrom path offset buffer) hopen
    exact ⟨_, during, closed, haccount.cons ⟨found, rfl⟩⟩

/-- The account of an append: the open, its write and its close. -/
theorem account_append [Allocator] {data : Bytes} {result : Except Error Nat}
    (h : (File.append path data).Makes events result)
    (hopen : ⟨.open p mode, .ok file⟩ ∈ events) :
    ∃ during closed, (append path data).Account config .appending file events [] during closed []
      result := by
  rw [File.append, requirePath_bind] at h
  split at h
  · obtain ⟨rfl, -⟩ := makes_throw h
    cases hopen
  · exact account_withFile (append path data) config h (fun _ => reports_writeAll _ data) hopen

/-- The account of a digest: the open, its reads and its close. -/
theorem account_digest [Allocator] {size : Nat} {algorithm : Algorithm}
    {result : Except Error Digest}
    (h : (Digest.ofFile path size algorithm config).Makes events result)
    (hopen : ⟨.open p mode, .ok file⟩ ∈ events) :
    ∃ during closed, (digest path size algorithm).Account config .readOnly file events [] during
      closed [] result := by
  rw [Digest.ofFile, requirePath_bind] at h
  split at h
  · obtain ⟨rfl, -⟩ := makes_throw h
    cases hopen
  · exact account_withFile (digest path size algorithm) config h
      (fun _ => reports_stream config path size algorithm) hopen

/-- The size check looks at the file once, and accepts it only with the size that it should have. -/
theorem makes_verifySize {desired : Nat} {result : Except Error Unit} (hpath : ¬path.isEmpty)
    (h : (File.verifySize path desired).Makes events result) :
    ∃ answer, events = [⟨.stat path, answer⟩] ∧
      ∀ a, result = .ok a → ∃ entry, answer = .ok entry ∧ entry.size = desired := by
  rw [File.verifySize, Makes, run_observe_bind] at h
  obtain ⟨before, after, size, rfl, hsize, hcheck⟩ := Program.Makes.of_bind h
  have hsize : (File.size path).Makes before size := hsize
  rw [File.size, requirePath_bind, if_neg hpath, bind_pure_comp] at hsize
  obtain ⟨_, hstat, rfl⟩ := makes_map hsize
  obtain ⟨_ | entry, rfl, rfl⟩ := makes_requestOr hstat
  · obtain ⟨rfl, rfl⟩ := makes_throw hcheck
    exact ⟨_, rfl, fun a hok => by cases hok⟩
  · replace hcheck : Makes (if entry.size ≠ desired then throw (.ioError
        s!"{path} is {entry.size} bytes after writing {desired}") else pure ()) after result :=
      hcheck
    by_cases hdesired : entry.size = desired
    · rw [if_neg (Decidable.not_not.2 hdesired)] at hcheck
      obtain ⟨rfl, rfl⟩ := makes_pure hcheck
      exact ⟨_, rfl, fun _ _ => ⟨entry, rfl, hdesired⟩⟩
    · rw [if_pos hdesired] at hcheck
      obtain ⟨rfl, rfl⟩ := makes_throw hcheck
      exact ⟨_, rfl, fun a hok => by cases hok⟩

/-- The account of a write: open, truncate, write, close, and a `stat` where sizes are checked. -/
theorem account_write [Allocator] {data : Bytes} {result : Except Error Nat}
    (h : (File.write path data config).Makes events result)
    (hopen : ⟨.open p mode, .ok file⟩ ∈ events) :
    ∃ during closed after, (write path data).Account config .replacing file events [] during
        closed after result ∧
      ∀ a, result = .ok a → config.checksSize = true →
        ∃ entry, after = [⟨.stat path, .ok entry⟩] ∧ entry.size = data.length := by
  rw [File.write, requirePath_bind] at h
  split at h
  · obtain ⟨rfl, -⟩ := makes_throw h
    cases hopen
  next hpath =>
  have haccount : ∀ {events result}, (File.withFile path .replacing fun file => do
        request (.truncate file data.length)
        File.writeAll file data).Makes events result →
      ⟨.open p mode, .ok file⟩ ∈ events →
        ∃ during closed, (write path data).Account config .replacing file events [] during closed
          [] result := fun h hopen =>
    account_withFile (write path data) config h (fun _ => reports_write path data) hopen
  rcases makes_bind h with ⟨e, hwrite, rfl⟩ | ⟨first, rest, written, rfl, hwrite, hrest⟩
  · obtain ⟨during, closed, haccount⟩ := haccount hwrite hopen
    exact ⟨during, closed, [], haccount.map id, nofun⟩
  by_cases hcheck : config.checksSize = true
  · rw [if_pos hcheck, bind_pure_comp] at hrest
    obtain ⟨verified, hverify, rfl⟩ := makes_map hrest
    obtain ⟨answer, rfl, hsize⟩ := makes_verifySize hpath hverify
    have hfirst : ⟨.open p mode, .ok file⟩ ∈ first := by
      rcases List.mem_append.1 hopen with hfirst | hlater
      · exact hfirst
      · exact absurd (mem_of_mem_cons hlater nofun) List.not_mem_nil
    obtain ⟨during, closed, haccount⟩ := haccount hwrite hfirst
    have hentry : ∀ a, verified.map (fun _ => written) = .ok a →
        ∃ entry, answer = .ok entry ∧ entry.size = data.length := by
      intro a ha
      cases verified with
      | error e => cases ha
      | ok u => exact hsize u rfl
    refine ⟨during, closed, _, haccount.append ?_, ?_⟩
    · intro a ha
      obtain ⟨entry, rfl, -⟩ := hentry a ha
      exact List.forall_mem_singleton.2 ⟨entry, rfl⟩
    · intro a ha _
      obtain ⟨entry, rfl, hlength⟩ := hentry a ha
      exact ⟨entry, rfl, hlength⟩
  · rw [if_neg hcheck] at hrest
    obtain ⟨rfl, rfl⟩ := makes_pure hrest
    rw [List.append_nil] at hopen ⊢
    obtain ⟨during, closed, haccount⟩ := haccount hwrite hopen
    exact ⟨during, closed, [], haccount, fun _ _ h => absurd h hcheck⟩

end Operations

/-- **Errors are neither masked nor lost.**  On a volume that answers as it likes, and on a machine
that gives what memory it likes, an operation that has opened its file answers with the first fault
of the work on it, whatever `close` says; with the refusal of a digest that cannot begin, if there
is no fault; and with a failed `close`, if there is neither. It succeeds only if every call did, and
a `write` with the size check only if the size it looked for was found behind the `close`. -/
theorem exists_account [Allocator] (config : Config) (access : FileAccess) {events : List Event}
    {result : Except Error Response} (h : (access.toRequest.operation config).Makes events result)
    {path : String} {mode : OpenMode} {file : FileHandle}
    (hopen : ⟨.open path mode, .ok file⟩ ∈ events) :
    ∃ mode before during closed after,
      access.Account config mode file events before during closed after result ∧
      ∀ response desired, result = .ok response → access.desired? config = some desired →
        ∃ entry, after = [⟨.stat access.path, .ok entry⟩] ∧ entry.size = desired := by
  cases access with
  | read path offset buffer =>
    obtain ⟨answer, hread, rfl⟩ := makes_map h
    obtain ⟨before, during, closed, haccount⟩ := account_read config hread hopen
    exact ⟨_, before, during, closed, [], haccount.map _, nofun⟩
  | write path data =>
    obtain ⟨answer, hwrite, rfl⟩ := makes_map h
    obtain ⟨during, closed, after, haccount, hsize⟩ := account_write config hwrite hopen
    refine ⟨_, [], during, closed, after, haccount.map _, ?_⟩
    intro response desired hresponse hdesired
    rw [desired?] at hdesired
    split at hdesired
    · next hcheck =>
      cases hdesired
      cases answer with
      | error e => cases hresponse
      | ok written => exact hsize written rfl hcheck
    · cases hdesired
  | append path data =>
    obtain ⟨answer, happend, rfl⟩ := makes_map h
    obtain ⟨during, closed, haccount⟩ := account_append config happend hopen
    exact ⟨_, [], during, closed, [], haccount.map _, nofun⟩
  | digest path size algorithm =>
    obtain ⟨answer, hdigest, rfl⟩ := makes_map h
    obtain ⟨during, closed, haccount⟩ := account_digest config hdigest hopen
    exact ⟨_, [], during, closed, [], haccount.map _, nofun⟩

/-- A write that takes one byte of two is reported, and the `close` that fails behind it is not. -/
theorem exists_account_diskFull :
    let _ : Allocator := .upTo 1024 16
    let access : FileAccess := .write "/lfs/f" [1, 2]
    let events : List Event := [⟨.open "/lfs/f" .replacing, .ok ⟨0⟩⟩, ⟨.truncate ⟨0⟩ 2, .ok ()⟩,
      ⟨.write ⟨0⟩ [1, 2], .ok 1⟩, ⟨.close ⟨0⟩, .error .noSpace⟩]
    (access.toRequest.operation {}).Makes events (.error (.diskFull 1 2)) ∧
      ∃ mode before during closed after, access.Account {} mode ⟨0⟩ events before during closed
        after (.error (.diskFull 1 2) : Except Error Response) := by
  intro machine access events
  have hrun : (access.toRequest.operation {}).Makes events (.error (.diskFull 1 2)) :=
    .step (.call _ _ _) <| .step (.call _ _ _) <| .step (.call _ _ _) <|
      .step (.call _ _ _) (.start _)
  obtain ⟨mode, before, during, closed, after, haccount, -⟩ :=
    exists_account {} access hrun List.mem_cons_self
  exact ⟨hrun, mode, before, during, closed, after, haccount⟩

/-- **A digest that cannot begin hides a failed `close`:** one that is to read a byte in chunks of
none, and, under a configuration without a defect, one of two bytes on a machine that gives one. The
file is opened, no call between `open` and `close` fails, `close` does, and the answer is not
that. -/
theorem refusal_masks_close :
    let _ : Allocator := .upTo 1 0
    let chunkless : Config := { hashChunkSize := 0 }
    let events : List Event := [⟨.open "/lfs/f" .readOnly, .ok ⟨0⟩⟩, ⟨.close ⟨0⟩, .error .noSpace⟩]
    (∃ result, ((digest "/lfs/f" 1 .sha256).toRequest.operation chunkless).Makes events result ∧
      ¬∃ text, result = .error (.ioError text)) ∧
    ({} : Config).defect? = none ∧
      ∃ result, ((digest "/lfs/f" 2 .sha256).toRequest.operation {}).Makes events result ∧
        ¬∃ text, result = .error (.ioError text) := by
  intro machine chunkless events
  refine ⟨⟨.error (.invalidInput "zero chunk size"), ?_, nofun⟩, by decide,
    .error (.outOfMemory "2 byte digest buffer"), ?_, nofun⟩
  · exact .step (.call _ _ _) <| .step (.call _ _ _) (.start _)
  · exact .step (.call _ _ _) <| .step (.call _ _ _) (.start _)

end FileAccess
end FlashVolume

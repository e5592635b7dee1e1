import FlashVolume.Digest.File
import FlashVolume.Proofs.Digest.Conformance
import FlashVolume.Proofs.Storage.Runs
import Mathlib.Algebra.GroupWithZero.Nat
/-!
# What a digest reads

Section 4.5 of the specification: the loop of `digest`, its short reads and its zeroed output.

A digest asks for the bytes of a file chunk by chunk: each time for as many as are still missing, up
to the size of a chunk, and never for none (`Asks`). So it asks at most once for each chunk, and it
comes to an end on every volume. It goes on only after a read that answered all it was asked for.

What a digest leaves in a cell is all or nothing (`intoCell_allOrNothing`):

| run | cell |
| --- | --- |
| opened, every chunk read in full, closed | the digest of the bytes that were read, in order |
| any other | the value that stands for no digest |
-/

namespace FlashVolume

open Operation

/-- The length that a call asks for, if it is a read. -/
def Call.readLength? {α : Type} : Call α → Option Nat
  | .read _ length => some length
  | _ => none

/-- The lengths that the reads among the events ask for, in order. -/
def readLengths (events : List Event) : List Nat :=
  events.filterMap fun event => event.call.readLength?

/-- Reads made later are listed later. -/
@[simp] theorem readLengths_append (events events' : List Event) :
    readLengths (events ++ events') = readLengths events ++ readLengths events' :=
  List.filterMap_append

/-- A read that answers all it was asked for. -/
def Event.fullRead (file : FileHandle) (bytes : Bytes) : Event :=
  ⟨.read file bytes.length, .ok bytes⟩

/-- A full read tells the bytes it was answered. -/
theorem Event.fullRead_inj {file : FileHandle} {bytes bytes' : Bytes}
    (h : fullRead file bytes = fullRead file bytes') : bytes = bytes' := by
  injection h with _ _ hanswer
  exact Except.ok.inj hanswer

/-- Full reads ask for as many bytes as they get. -/
@[simp] theorem readLengths_fullReads (file : FileHandle) (chunks : List Bytes) :
    readLengths (chunks.map (.fullRead file)) = chunks.map List.length := by
  induction chunks with
  | nil => rfl
  | cons bytes chunks ih => exact congrArg (bytes.length :: ·) ih

namespace Digest

/-! ### Lengths -/

/-- What is asked for, one length after the other: as much as is missing, up to a chunk, and never
nothing. -/
def Asks (size chunk : Nat) (lengths : List Nat) : Prop :=
  ∀ before length after, lengths = before ++ length :: after →
    length = min (size - before.sum) chunk ∧ 0 < length

namespace Asks

variable {size chunk length : Nat} {lengths rest : List Nat}

/-- Nothing asked for is right for nothing left. -/
theorem nil : Asks size chunk [] := by
  intro before length after h
  simp at h

/-- The first read asks for a chunk or for what is left, and the others for the rest. -/
theorem cons_iff : Asks size chunk (length :: rest) ↔
    length = min size chunk ∧ 0 < length ∧ Asks (size - length) chunk rest := by
  constructor
  · intro h
    obtain ⟨hlength, hpos⟩ := h [] length rest rfl
    refine ⟨hlength, hpos, fun before next after hrest => ?_⟩
    obtain ⟨hnext, hpos'⟩ := h (length :: before) next after (by rw [hrest]; rfl)
    rw [List.sum_cons, ← Nat.sub_sub] at hnext
    exact ⟨hnext, hpos'⟩
  · rintro ⟨hlength, hpos, hrest⟩ before next after heq
    cases before with
    | nil =>
      obtain ⟨rfl, rfl⟩ := List.cons.inj heq
      exact ⟨hlength, hpos⟩
    | cons first before =>
      obtain ⟨rfl, hafter⟩ := List.cons.inj heq
      rw [List.sum_cons, ← Nat.sub_sub]
      exact hrest before next after hafter

/-- What was asked for at the beginning. -/
theorem of_append (h : Asks size chunk (lengths ++ rest)) : Asks size chunk lengths := by
  intro before length after heq
  exact h before length (after ++ rest) (by simp [heq])

/-- Nothing is asked for when nothing is missing, nor in chunks of nothing. -/
theorem eq_nil (h : Asks size chunk lengths) (hnone : min size chunk = 0) : lengths = [] := by
  cases lengths with
  | nil => rfl
  | cons length rest =>
    obtain ⟨hlength, hpos, -⟩ := cons_iff.1 h
    omega

/-- **There are no more lengths than chunks.** -/
theorem length_le (h : Asks size chunk lengths) :
    lengths.length ≤ (size + chunk - 1) / chunk := by
  by_cases hchunk : chunk = 0
  · rw [h.eq_nil (by omega)]
    exact Nat.zero_le _
  rw [Nat.le_div_iff_mul_le (Nat.pos_of_ne_zero hchunk)]
  induction lengths generalizing size with
  | nil => simp
  | cons length rest ih =>
    obtain ⟨hlength, hpos, hrest⟩ := cons_iff.1 h
    have hless := ih hrest
    rw [List.length_cons, Nat.add_mul, Nat.one_mul]
    by_cases hlast : size ≤ chunk
    · rw [hrest.eq_nil (by omega), List.length_nil]
      omega
    · omega

end Asks

/-! ### Runs -/

variable {file : FileHandle} {path : String} {chunk remaining : Nat} {events : List Event}

/-- What a run that reads a file tells: what it asked for, and that it succeeded if all was read,
with a value that depends on the chunks that were. -/
structure Reads {α : Type} (file : FileHandle) (size chunk : Nat) (value : List Bytes → α)
    (events : List Event) (result : Except Error α) : Prop where
  asks : Asks size chunk (readLengths events)
  /-- Every event is a read. -/
  length_eq : events.length = (readLengths events).length
  ok_iff : ∀ a, result = .ok a ↔ ∃ chunks : List Bytes, events = chunks.map (.fullRead file) ∧
    (chunks.map List.length).sum = size ∧ a = value chunks

/-- A run that does not read has nothing to read. -/
theorem Reads.nothing {α : Type} {value : List Bytes → α} :
    Reads file 0 chunk value [] (.ok (value [])) where
  asks := .nil
  length_eq := rfl
  ok_iff a := by
    constructor
    · rintro ⟨⟩
      exact ⟨[], rfl, rfl, rfl⟩
    · rintro ⟨chunks, hevents, -, rfl⟩
      obtain rfl := List.map_eq_nil_iff.1 hevents.symm
      rfl

/-- A run without a read that has to fail if there is something to be read. -/
theorem Reads.refused {α : Type} {size : Nat} {value : List Bytes → α} {e : Error}
    (hsize : size ≠ 0) : Reads file size chunk value [] (.error e) where
  asks := .nil
  length_eq := rfl
  ok_iff a := by
    refine iff_of_false nofun ?_
    rintro ⟨chunks, hevents, hsum, -⟩
    obtain rfl := List.map_eq_nil_iff.1 hevents.symm
    exact hsize hsum.symm

/-- A read that does not answer all it was asked for ends a run. -/
theorem Reads.stopped {α : Type} {value : List Bytes → α} {e : Error} {length : Nat}
    {answer : Except StorageError Bytes} (hlength : length = min remaining chunk)
    (hpos : 0 < length) (hshort : ∀ bytes, answer = .ok bytes → bytes.length ≠ length) :
    Reads file remaining chunk value [⟨.read file length, answer⟩] (.error e) where
  asks := Asks.cons_iff.2 ⟨hlength, hpos, .nil⟩
  length_eq := rfl
  ok_iff a := by
    refine iff_of_false nofun ?_
    rintro ⟨chunks, hevents, -, -⟩
    cases chunks with
    | nil => cases hevents
    | cons bytes rest =>
      cases (List.cons.inj hevents).1
      exact hshort bytes rfl rfl

/-- A read that answers all it was asked for comes in front of a run. -/
theorem Reads.full {α : Type} {value : List Bytes → α} {bytes : Bytes} {result : Except Error α}
    (hlength : bytes.length = min remaining chunk) (hpos : 0 < bytes.length)
    (h : Reads file (remaining - bytes.length) chunk (fun chunks => value (bytes :: chunks)) events
      result) :
    Reads file remaining chunk value (.fullRead file bytes :: events) result where
  asks := Asks.cons_iff.2 ⟨hlength, hpos, h.asks⟩
  length_eq := congrArg (· + 1) h.length_eq
  ok_iff a := by
    rw [h.ok_iff a]
    constructor
    · rintro ⟨chunks, rfl, hsum, rfl⟩
      refine ⟨bytes :: chunks, rfl, ?_, rfl⟩
      rw [List.map_cons, List.sum_cons, hsum]
      omega
    · rintro ⟨chunks, hevents, hsum, rfl⟩
      cases chunks with
      | nil => cases hevents
      | cons first chunks =>
        obtain ⟨hfirst, hrest⟩ := List.cons.inj hevents
        obtain rfl := Event.fullRead_inj hfirst
        rw [List.map_cons, List.sum_cons] at hsum
        exact ⟨chunks, hrest, by omega, rfl⟩

/-- The value can be turned into another one behind the reads. -/
theorem Reads.map {α β : Type} {size : Nat} {value : List Bytes → α} {result : Except Error α}
    (h : Reads file size chunk value events result) (f : α → β) :
    Reads file size chunk (fun chunks => f (value chunks)) events (result.map f) where
  asks := h.asks
  length_eq := h.length_eq
  ok_iff b := by
    constructor
    · intro hb
      cases result with
      | error e => cases hb
      | ok a =>
        obtain ⟨chunks, hevents, hsum, rfl⟩ := (h.ok_iff a).1 rfl
        cases hb
        exact ⟨chunks, hevents, hsum, rfl⟩
    · rintro ⟨chunks, hevents, hsum, rfl⟩
      rw [(h.ok_iff _).2 ⟨chunks, hevents, hsum, rfl⟩]
      rfl

/-- **A digest reads chunk by chunk,** and feeds what it reads. -/
theorem reads_feed (hchunk : 0 < chunk) {acc : Accumulator} {result : Except Error Accumulator}
    (h : (feed file path chunk hchunk remaining acc).Makes events result) :
    Reads file remaining chunk
      (fun chunks => chunks.foldl (fun acc chunk => acc.absorb chunk) acc) events result := by
  -- By induction on what is missing, which each chunk makes less.
  induction remaining using Nat.strongRecOn generalizing acc events with
  | ind remaining ih =>
    rw [feed] at h
    split at h
    · next hzero =>
      obtain ⟨rfl, rfl⟩ := makes_pure h
      subst hzero
      exact .nothing
    · next hsome =>
      have hpos : 0 < min remaining chunk := by omega
      rcases makes_bind h with ⟨e, hread, rfl⟩ | ⟨before, after, bytes, rfl, hread, hrest⟩
      · obtain ⟨answer, rfl, hanswer⟩ := makes_requestOr hread
        refine .stopped rfl hpos ?_
        rintro bytes rfl
        cases hanswer
      · obtain ⟨_ | bytes, rfl, hanswer⟩ := makes_requestOr hread
        · cases hanswer
        · cases hanswer
          by_cases hlength : bytes.length = min remaining chunk
          · rw [if_neg (Decidable.not_not.2 hlength)] at hrest
            have hless : remaining - min remaining chunk < remaining := by omega
            have hreads := ih _ hless hrest
            rw [← hlength] at hreads ⊢
            exact .full hlength (hlength ▸ hpos) hreads
          · rw [if_pos hlength] at hrest
            obtain ⟨rfl, rfl⟩ := makes_throw hrest
            refine .stopped rfl hpos ?_
            rintro _ ⟨⟩
            exact hlength

/-- Chunks that are as long as is asked for are fed. -/
theorem makes_feed (hchunk : 0 < chunk) {chunks : List Bytes}
    (hasks : Asks remaining chunk (chunks.map List.length))
    (hsum : (chunks.map List.length).sum = remaining) (acc : Accumulator) :
    (feed file path chunk hchunk remaining acc).Makes (chunks.map (.fullRead file))
      (.ok (chunks.foldl (fun acc chunk => acc.absorb chunk) acc)) := by
  induction chunks generalizing remaining acc with
  | nil =>
    have hnone : remaining = 0 := hsum.symm
    rw [feed, dif_pos hnone]
    exact .start _
  | cons bytes chunks ih =>
    rw [List.map_cons, Asks.cons_iff] at hasks
    obtain ⟨hlength, hpos, hasks⟩ := hasks
    rw [List.map_cons, List.sum_cons] at hsum
    have hsome : ¬remaining = 0 := by omega
    have hrest := ih hasks (by omega) (acc.absorb bytes)
    rw [feed, dif_neg hsome, ← hlength]
    refine .step (.call _ _ _) ?_
    change Operation.Makes (if bytes.length ≠ bytes.length then throw _ else _) _ _
    rw [if_neg (Decidable.not_not.2 rfl)]
    exact hrest

/-- **What is read of an open file,** whether or not the digest can begin. -/
theorem reads_stream [Allocator] {size : Nat} {algorithm : Algorithm}
    {result : Except Error Digest}
    (h : (stream file path size chunk algorithm).Makes events result) :
    Reads file size chunk (fun chunks => algorithm.digest chunks.flatten) events result := by
  rw [stream] at h
  simp only [← Accumulator.finish_foldl_absorb]
  by_cases hchunk : 0 < chunk
  · rw [dif_pos hchunk] at h
    by_cases hbuffer : Allocator.grantsBytes (min size chunk) = true
    · rw [if_neg (by simp [hbuffer]), bind_pure_comp] at h
      obtain ⟨fed, hfeed, rfl⟩ := makes_map h
      exact (reads_feed hchunk hfeed).map Accumulator.finish
    · rw [if_pos (by simpa using hbuffer)] at h
      obtain ⟨rfl, rfl⟩ := makes_throw h
      refine .refused ?_
      rintro rfl
      exact hbuffer (by rw [Nat.zero_min, Allocator.grantsBytes_zero])
  · rw [dif_neg hchunk] at h
    by_cases hsize : size > 0
    · rw [if_pos hsize] at h
      obtain ⟨rfl, rfl⟩ := makes_throw h
      exact .refused (Nat.ne_of_gt hsize)
    · rw [if_neg hsize] at h
      obtain ⟨rfl, rfl⟩ := makes_pure h
      obtain rfl := Nat.eq_zero_of_not_pos hsize
      exact .nothing

/-- The events of a run that reads every chunk of a file. -/
def wholeRun (path : String) (file : FileHandle) (chunks : List Bytes) : List Event :=
  ⟨.open path .readOnly, .ok file⟩ :: chunks.map (.fullRead file) ++ [⟨.close file, .ok ()⟩]

/-- Opening and closing reads nothing. -/
theorem readLengths_around (path : String) (mode : OpenMode) (file : FileHandle)
    (opened : Except StorageError FileHandle) (closed : Except StorageError Unit) :
    readLengths (⟨.open path mode, opened⟩ :: events ++ [⟨.close file, closed⟩]) =
      readLengths events := by
  rw [readLengths_append]
  exact List.append_nil _

/-- **What is read for the digest of a file.** -/
theorem reads_ofFile [Allocator] {size : Nat} {algorithm : Algorithm} {config : Config}
    {result : Except Error Digest} (h : (ofFile path size algorithm config).Makes events result) :
    Asks size (algorithm.chunkSize config) (readLengths events) ∧
      events.length ≤ (readLengths events).length + 2 ∧
      ∀ value, result = .ok value ↔ ∃ file chunks, events = wholeRun path file chunks ∧
        (chunks.map List.length).sum = size ∧ value = algorithm.digest chunks.flatten := by
  rw [ofFile, requirePath_bind] at h
  by_cases hempty : path.isEmpty
  · rw [if_pos hempty] at h
    obtain ⟨rfl, rfl⟩ := makes_throw h
    refine ⟨.nil, Nat.zero_le _, fun value => iff_of_false nofun ?_⟩
    rintro ⟨file, chunks, ⟨⟩, -⟩
  rw [if_neg hempty] at h
  rcases makes_withFile h with ⟨e, rfl, rfl⟩ | ⟨file, during, worked, closed, rfl, hwork, rfl⟩
  · refine ⟨.nil, Nat.le_succ _, fun value => iff_of_false nofun ?_⟩
    rintro ⟨file, chunks, ⟨⟩, -⟩
  · obtain ⟨hasks, hlength, hok⟩ := reads_stream hwork
    rw [readLengths_around]
    refine ⟨hasks, by simp [hlength], fun value => ?_⟩
    have hclosed : File.afterClose path worked closed = .ok value ↔
        worked = .ok value ∧ closed = .ok () := by
      cases worked <;> cases closed <;> simp [File.afterClose]
    rw [hclosed, hok value]
    constructor
    · rintro ⟨⟨chunks, rfl, hsum, hvalue⟩, rfl⟩
      exact ⟨file, chunks, rfl, hsum, hvalue⟩
    · rintro ⟨file', chunks, hevents, hsum, hvalue⟩
      obtain ⟨hopen, hrest⟩ := List.cons.inj hevents
      cases hopen
      obtain ⟨hduring, hclose⟩ := List.append_inj' hrest rfl
      cases hclose
      exact ⟨⟨chunks, hduring, hsum, hvalue⟩, rfl⟩

/-- A file that is opened is worked on and closed, and the `close` decides. -/
theorem makes_ofFile_of_stream [Allocator] {size : Nat} {algorithm : Algorithm} {config : Config}
    {worked : Except Error Digest} (hpath : path ≠ "")
    (h : (stream file path size (algorithm.chunkSize config) algorithm).Makes events worked)
    (closed : Except StorageError Unit) :
    (ofFile path size algorithm config).Makes
      (⟨.open path .readOnly, .ok file⟩ :: events ++ [⟨.close file, closed⟩])
      (File.afterClose path worked closed) := by
  have hempty : ¬path.isEmpty = true := by simpa using hpath
  rw [ofFile, requirePath_bind, if_neg hempty]
  exact Makes.withFile h closed

/-- **Chunks that are as long as is asked for lead to a digest.** -/
theorem makes_stream [Allocator] {size : Nat} {algorithm : Algorithm} {chunks : List Bytes}
    (hchunk : 0 < chunk ∨ size = 0) (hbuffer : Allocator.grantsBytes (min size chunk) = true)
    (hasks : Asks size chunk (chunks.map List.length))
    (hsum : (chunks.map List.length).sum = size) :
    (stream file path size chunk algorithm).Makes (chunks.map (.fullRead file))
      (.ok (algorithm.digest chunks.flatten)) := by
  rw [← Accumulator.finish_foldl_absorb]
  by_cases hsome : 0 < chunk
  · rw [stream, dif_pos hsome, if_neg (by simp [hbuffer]), ← List.append_nil (chunks.map _)]
    exact Program.Makes.append ((makes_feed hsome hasks hsum _).bind _) (.start _)
  · obtain rfl := hchunk.resolve_left hsome
    obtain rfl : chunks = [] := List.map_eq_nil_iff.1 (hasks.eq_nil (Nat.zero_min chunk))
    rw [stream, dif_neg hsome, if_neg (Nat.lt_irrefl 0)]
    exact .start _

/-- Without a buffer nothing is read. -/
theorem makes_stream_refused [Allocator] {size : Nat} {algorithm : Algorithm} (hchunk : 0 < chunk)
    (hbuffer : ¬Allocator.grantsBytes (min size chunk) = true) :
    (stream file path size chunk algorithm).Makes []
      (.error (.outOfMemory s!"{min size chunk} byte digest buffer")) := by
  rw [stream, dif_pos hchunk, if_pos (by simpa using hbuffer)]
  exact .start _

/-! ### The cell -/

/-- What an operation answers that puts a digest into a cell, and what the cell holds then. -/
def settled (algorithm : Algorithm) : Except Error Digest → Except Error Unit × Digest
  | .ok value => (.ok (), value)
  | .error e => (.error e, algorithm.zeroed)

/-- A digest that is put into a cell is the digest of the file, and leaves zeros in the cell if
there is none. -/
theorem run_intoCell [Allocator] (path : String) (size : Nat) (algorithm : Algorithm)
    (config : Config) (cell : Digest) : (intoCell path size algorithm config).run cell =
      (ofFile path size algorithm config).run.bind fun result =>
        .ret (settled algorithm result) := by
  rw [intoCell]
  simp only [StateT.run_bind, StateT.run_set, StateT.run_monadLift, monadLift_self, bind_assoc,
    pure_bind, liftM]
  refine congrArg (Program.bind _) (funext fun result => ?_)
  cases result <;> rfl

/-- The runs that fill a cell are the runs for the digest of the file. -/
theorem makes_intoCell_iff [Allocator] {size : Nat} {algorithm : Algorithm} {config : Config}
    {cell : Digest} {answer : Except Error Unit × Digest} :
    ((intoCell path size algorithm config).run cell).Makes events (.ret answer) ↔
      ∃ result, (ofFile path size algorithm config).Makes events result ∧
        answer = settled algorithm result := by
  rw [run_intoCell]
  constructor
  · intro h
    obtain ⟨before, after, result, rfl, hfile, hrest⟩ := h.of_bind
    obtain ⟨rfl, rfl⟩ := hrest.of_ret
    rw [List.append_nil]
    exact ⟨result, hfile, rfl⟩
  · rintro ⟨result, hfile, rfl⟩
    rw [← List.append_nil events]
    exact (Program.Makes.bind hfile _).append (.start _)

/-- **A digest in a cell is all or nothing.**  Whatever the volume answers, and whatever memory the
machine gives: at every moment of a run, what was asked for so far is what was missing, up to a
chunk, and never nothing, so that the run comes to an end. When it does, the cell holds the digest
of all the bytes that were read, in order, as the standard describes it, if all that was asked for
was answered and closed, and zeros if not. And if all of that is answered and closed, there is a
digest, unless there is no path, no chunk for what is to be read, or no buffer. A buffer that is
refused is the error, and nothing is read. -/
theorem intoCell_allOrNothing [Allocator] (path : String) (size : Nat) (algorithm : Algorithm)
    (config : Config) (cell : Digest) :
    let chunk := algorithm.chunkSize config
    let program := (intoCell path size algorithm config).run cell
    (∀ events rest, program.Makes events rest →
      Asks size chunk (readLengths events) ∧
      (readLengths events).length ≤ (size + chunk - 1) / chunk ∧
      (chunk = 0 → readLengths events = []) ∧
      events.length ≤ (size + chunk - 1) / chunk + 2) ∧
    (∀ events result out, program.Makes events (.ret (result, out)) →
      (∀ e, result = .error e → out = algorithm.zeroed) ∧
      (result = .ok () ↔ ∃ file chunks, events = wholeRun path file chunks ∧
        (chunks.map List.length).sum = size ∧ out = algorithm.standard chunks.flatten)) ∧
    (∀ file chunks, path ≠ "" → (0 < chunk ∨ size = 0) →
      Allocator.grantsBytes (min size chunk) = true →
      Asks size chunk (chunks.map List.length) → (chunks.map List.length).sum = size →
      program.Makes (wholeRun path file chunks)
        (.ret (.ok (), algorithm.standard chunks.flatten))) ∧
    ∀ file closed, path ≠ "" → 0 < chunk → ¬Allocator.grantsBytes (min size chunk) = true →
      program.Makes [⟨.open path .readOnly, .ok file⟩, ⟨.close file, closed⟩]
        (.ret (.error (.outOfMemory s!"{min size chunk} byte digest buffer"),
          algorithm.zeroed)) := by
  intro chunk program
  simp only [← Algorithm.digest_eq_standard]
  refine ⟨?_, ?_, ?_, ?_⟩
  · intro events rest hmakes
    obtain ⟨later, answer, hlater⟩ := rest.exists_makes_ret
    -- What was made so far is the beginning of a run that comes to an end.
    obtain ⟨result, hfile, -⟩ := makes_intoCell_iff.1 (hmakes.append hlater)
    obtain ⟨hasks, hcount, -⟩ := reads_ofFile hfile
    change Asks size chunk _ at hasks
    have hbound := hasks.length_le
    rw [List.length_append] at hcount
    rw [readLengths_append] at hasks
    exact ⟨hasks.of_append, hasks.of_append.length_le,
      fun hchunk => hasks.of_append.eq_nil (by omega), by omega⟩
  · intro events result out hmakes
    obtain ⟨worked, hfile, hanswer⟩ := makes_intoCell_iff.1 hmakes
    obtain ⟨-, -, hok⟩ := reads_ofFile hfile
    cases worked with
    | error e =>
      cases hanswer
      refine ⟨fun _ _ => rfl, iff_of_false nofun ?_⟩
      rintro ⟨file, chunks, hevents, hsum, -⟩
      cases (hok _).2 ⟨file, chunks, hevents, hsum, rfl⟩
    | ok value =>
      cases hanswer
      exact ⟨nofun, iff_of_true rfl ((hok out).1 rfl)⟩
  · intro file chunks hpath hchunk hbuffer hasks hsum
    exact makes_intoCell_iff.2
      ⟨_, makes_ofFile_of_stream hpath (makes_stream hchunk hbuffer hasks hsum) (.ok ()), rfl⟩
  · intro file closed hpath hchunk hbuffer
    exact makes_intoCell_iff.2
      ⟨_, makes_ofFile_of_stream hpath (makes_stream_refused hchunk hbuffer) closed, rfl⟩

/-- Three bytes are read in chunks of two, on a machine that has two bytes for a buffer. They leave
their digest in a cell that held a checksum if the `close` succeeds, and zeros if it fails; chunks
of three leave zeros as well, as there is no buffer for them. -/
theorem intoCell_allOrNothing_chunks :
    let _ : Allocator := .upTo 2 0
    let config : Config := { hashChunkSize := 2 }
    let program := (intoCell "/lfs/f" 3 .sha256 config).run (.crc32 7)
    let whole := wholeRun "/lfs/f" ⟨0⟩ [[97, 98], [99]]
    let broken : List Event :=
      ⟨.open "/lfs/f" .readOnly, .ok ⟨0⟩⟩ :: [[97, 98], [99]].map (.fullRead ⟨0⟩) ++
        [⟨.close ⟨0⟩, .error .noSpace⟩]
    (∃ out, program.Makes whole (.ret (.ok (), out)) ∧ out.toHex =
        "ba7816bf8f01cfea414140de5dae2223b00361a396177a9cb410ff61f20015ad" ∧
      Asks 3 2 (readLengths whole) ∧ readLengths whole = [2, 1]) ∧
    (∃ e out, program.Makes broken (.ret (.error e, out)) ∧ out = Algorithm.sha256.zeroed) ∧
    ((intoCell "/lfs/f" 3 .sha256 { hashChunkSize := 3 }).run (.crc32 7)).Makes
      [⟨.open "/lfs/f" .readOnly, .ok ⟨0⟩⟩, ⟨.close ⟨0⟩, .ok ()⟩]
      (.ret (.error (.outOfMemory "3 byte digest buffer"), Algorithm.sha256.zeroed)) := by
  intro machine config program whole broken
  have hasks : Asks 3 2 [2, 1] :=
    Asks.cons_iff.2 ⟨rfl, by decide, Asks.cons_iff.2 ⟨rfl, by decide, .nil⟩⟩
  obtain ⟨hruns, hends, hdigest, -⟩ := intoCell_allOrNothing "/lfs/f" 3 .sha256 config (.crc32 7)
  have hwhole := hdigest ⟨0⟩ [[97, 98], [99]] (by decide) (.inl (by decide)) (by decide) hasks rfl
  have hvalue : (Algorithm.sha256.standard [97, 98, 99]).toHex =
      "ba7816bf8f01cfea414140de5dae2223b00361a396177a9cb410ff61f20015ad" := by
    rw [← Algorithm.digest_eq_standard]
    decide +kernel
  have hstream : (stream ⟨0⟩ "/lfs/f" 3 2 .sha256).Makes
      ([[97, 98], [99]].map (.fullRead ⟨0⟩)) (.ok (Algorithm.sha256.digest [97, 98, 99])) :=
    makes_stream (.inl (by decide)) (by decide) hasks rfl
  have hbroken : program.Makes broken (.ret _) := makes_intoCell_iff.2
    ⟨_, makes_ofFile_of_stream (by decide) hstream (.error .noSpace), rfl⟩
  obtain ⟨-, -, -, hrefused⟩ :=
    intoCell_allOrNothing "/lfs/f" 3 .sha256 { hashChunkSize := 3 } (.crc32 7)
  exact ⟨⟨_, hwhole, hvalue, (hruns _ _ hwhole).1, rfl⟩,
    ⟨_, _, hbroken, (hends _ _ _ hbroken).1 _ rfl⟩,
    hrefused ⟨0⟩ (.ok ()) (by decide) (by decide) (by decide)⟩

end Digest
end FlashVolume

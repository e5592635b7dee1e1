import FlashVolume.Digest.File
import FlashVolume.Proofs.Digest.Conformance
import FlashVolume.Proofs.Memory.Requests
/-!
# Digests on a volume without faults

Sections 4.5 and 8 of the specification: `digest` of what is there.

On a mounted volume without faults the digest of a file is the digest of its first bytes, in
whatever chunks they are read. Before each read the accumulator stands for the bytes before the
position of the handle, and the position and what remains add up to where they have to end; a file
that ends earlier answers a short read. A machine that does not give the buffer is the one thing
that keeps a file that is long enough from having a digest.
-/

namespace FlashVolume
namespace MemoryVolume

open Operation

section Feeding

variable {v : MemoryVolume} {file : FileHandle} {f : OpenFile} {data : Bytes} {chunk : Nat}
  (hchunk : 0 < chunk) (path : String) {remaining : Nat}

/-- A read that answers all it is asked for is fed to the accumulator, and the rest follows. -/
theorem feed_full (h : v.Working file f data) (hmode : f.mode.read = true)
    (hremaining : remaining ≠ 0) (hle : f.position + min remaining chunk ≤ data.length)
    (acc : Accumulator) :
    ∃ v', v'.Working file { f with position := f.position + min remaining chunk } data ∧
      v'.pathMap = v.pathMap ∧
      runOn backend (Digest.feed file path chunk hchunk remaining acc) v =
        runOn backend (Digest.feed file path chunk hchunk (remaining - min remaining chunk)
          (acc.absorb ((data.drop f.position).take (min remaining chunk)))) v' := by
  obtain ⟨v', hread, hworking, hmap⟩ := h.read hmode (min remaining chunk)
  have hall : min (min remaining chunk) (data.length - f.position) = min remaining chunk := by
    omega
  rw [hall] at hworking
  refine ⟨v', hworking, hmap, ?_⟩
  rw [Digest.feed, dif_neg hremaining]
  simp [hread, hall]

/-- A read that answers less ends the digest. -/
theorem feed_short (h : v.Working file f data) (hmode : f.mode.read = true)
    (hremaining : remaining ≠ 0) (hlt : data.length < f.position + min remaining chunk)
    (acc : Accumulator) :
    ∃ e, v.Yields (Digest.feed file path chunk hchunk remaining acc) (.error e) v.pathMap := by
  obtain ⟨v', hread, hworking, hmap⟩ := h.read hmode (min remaining chunk)
  have hshort : min (min remaining chunk) (data.length - f.position) ≠ min remaining chunk := by
    omega
  have hrun : runOn backend (Digest.feed file path chunk hchunk remaining acc) v =
      (.error (.ioError s!"short read of {path} ({
        min (min remaining chunk) (data.length - f.position)} of {min remaining chunk} bytes)"),
        v') := by
    rw [Digest.feed, dif_neg hremaining]
    simp only [runOn_bind, runOn_requestOr, hread, mapError_ok, List.length_take,
      List.length_drop, if_pos hshort, runOn_throw]
  exact ⟨_, v', hrun, hworking.ready, hmap⟩

/-- **The loop feeds what remains.**  A file that is long enough leads the accumulator of a message
to that of the message with the next `remaining` bytes of the file behind it. -/
theorem feed_yields (algorithm : Algorithm) (h : v.Working file f data)
    (hmode : f.mode.read = true) (hle : f.position + remaining ≤ data.length) (message : Bytes) :
    v.Yields (Digest.feed file path chunk hchunk remaining (.after algorithm message))
      (.ok (.after algorithm (message ++ (data.drop f.position).take remaining))) v.pathMap := by
  -- By induction on what remains: a chunk moves from the file to the message.
  induction remaining using Nat.strongRecOn generalizing v f message with
  | ind remaining ih =>
    have hend : f.position + min remaining chunk + (remaining - min remaining chunk) =
        f.position + remaining := by
      omega
    by_cases hremaining : remaining = 0
    · subst hremaining
      refine ⟨v, ?_, h.ready, rfl⟩
      rw [Digest.feed, dif_pos rfl]
      simp
    · obtain ⟨v₁, hworking, hmap, hrun⟩ :=
        feed_full hchunk path h hmode hremaining (by omega) (.after algorithm message)
      have hless : remaining - min remaining chunk < remaining := by omega
      have hrest := ih _ hless hworking hmode (Nat.le_trans (Nat.le_of_eq hend) hle)
        (message ++ (data.drop f.position).take (min remaining chunk))
      have hmessage : (data.drop f.position).take (min remaining chunk) ++
          (data.drop (f.position + min remaining chunk)).take (remaining - min remaining chunk) =
            (data.drop f.position).take remaining := by
        rw [← List.drop_drop, ← List.take_add]
        congr 1
        omega
      rw [List.append_assoc, hmessage] at hrest
      obtain ⟨v₂, hrest, hv₂, hkept⟩ := hrest
      refine ⟨v₂, ?_, hv₂, hkept.trans hmap⟩
      rw [hrun, Accumulator.absorb_after, hrest]

/-- **A file that is too short ends the loop with an error.** -/
theorem feed_fails (h : v.Working file f data) (hmode : f.mode.read = true)
    (hposition : f.position ≤ data.length) (hlt : data.length < f.position + remaining)
    (acc : Accumulator) :
    ∃ e, v.Yields (Digest.feed file path chunk hchunk remaining acc) (.error e) v.pathMap := by
  induction remaining using Nat.strongRecOn generalizing v f acc with
  | ind remaining ih =>
    have hend : f.position + min remaining chunk + (remaining - min remaining chunk) =
        f.position + remaining := by
      omega
    by_cases hfits : f.position + min remaining chunk ≤ data.length
    · obtain ⟨v₁, hworking, hmap, hrun⟩ := feed_full hchunk path h hmode (by omega) hfits acc
      have hless : remaining - min remaining chunk < remaining := by omega
      obtain ⟨e, v₂, hrest, hv₂, hkept⟩ :=
        ih _ hless hworking hmode hfits (Nat.lt_of_lt_of_eq hlt hend.symm) _
      exact ⟨e, v₂, hrun.trans hrest, hv₂, hkept.trans hmap⟩
    · exact feed_short hchunk path h hmode (by omega) (by omega) acc

end Feeding

/-! ### Files -/

section Files

variable {v : MemoryVolume} {file : FileHandle} {path : String} {data : Bytes}

/-- A buffer that is not given is refused before the first read. -/
theorem stream_refused [Allocator] (hv : v.IsReady) {size chunk : Nat} (hchunk : 0 < chunk)
    (hbuffer : ¬Allocator.grantsBytes (min size chunk) = true) (algorithm : Algorithm) :
    v.Yields (Digest.stream file path size chunk algorithm)
      (.error (.outOfMemory s!"{min size chunk} byte digest buffer")) v.pathMap := by
  refine ⟨v, ?_, hv, rfl⟩
  simp [Digest.stream, hchunk, hbuffer]

/-- The digest of the next bytes of a file that has just been opened. -/
theorem stream_yields [Allocator] (h : v.Working file ⟨path, 0, .readOnly⟩ data)
    {size chunk : Nat} (hchunk : 0 < chunk) (hsize : size ≤ data.length)
    (hbuffer : Allocator.grantsBytes (min size chunk) = true) (algorithm : Algorithm) :
    v.Yields (Digest.stream file path size chunk algorithm)
      (.ok (algorithm.digest (data.take size))) v.pathMap := by
  have hle : (OpenFile.mk path 0 .readOnly).position + size ≤ data.length := by simpa using hsize
  obtain ⟨v', hrun, hv', hmap⟩ := feed_yields hchunk path algorithm h rfl hle []
  refine ⟨v', ?_, hv', hmap⟩
  simp [Digest.stream, hbuffer, hchunk, Accumulator.start_eq_after, hrun,
    Accumulator.finish_after]

/-- A file that is too short has no digest. -/
theorem stream_fails [Allocator] (h : v.Working file ⟨path, 0, .readOnly⟩ data) {size chunk : Nat}
    (hchunk : 0 < chunk) (hsize : data.length < size) (algorithm : Algorithm) :
    ∃ e, v.Yields (Digest.stream file path size chunk algorithm) (.error e) v.pathMap := by
  by_cases hbuffer : Allocator.grantsBytes (min size chunk) = true
  · have hlt : data.length < (OpenFile.mk path 0 .readOnly).position + size := by simpa using hsize
    obtain ⟨e, v', hrun, hv', hmap⟩ :=
      feed_fails hchunk path h rfl (Nat.zero_le _) hlt (.start algorithm)
    refine ⟨e, v', ?_, hv', hmap⟩
    simp [Digest.stream, hbuffer, hchunk, hrun]
  · exact ⟨_, stream_refused h.ready hchunk hbuffer algorithm⟩

/-- Without bytes in a chunk there is a digest of no bytes only. -/
theorem stream_zeroChunk [Allocator] (hv : v.IsReady) (size : Nat) (algorithm : Algorithm) :
    v.Yields (Digest.stream file path size 0 algorithm)
      (if 0 < size then .error (.invalidInput "zero chunk size") else .ok (algorithm.digest []))
      v.pathMap := by
  refine ⟨v, ?_, hv, rfl⟩
  by_cases hsize : 0 < size
  · simp [Digest.stream, hsize]
  · simp [Digest.stream, hsize, Accumulator.start_eq_after, Accumulator.finish_after]

/-- The digest of a file is that of the stream of the file that has been opened. -/
theorem exists_stream [Allocator] (hv : v.IsReady) (hpath : path ≠ "")
    (hfile : v.pathMap path = some (.file data)) :
    ∃ (file : FileHandle) (v₁ : MemoryVolume), v₁.Working file ⟨path, 0, .readOnly⟩ data ∧
      ∀ (size : Nat) (algorithm : Algorithm) (config : Config) (answer : Except Error Digest),
        v₁.Yields (Digest.stream file path size (algorithm.chunkSize config) algorithm) answer
          v₁.pathMap →
        v.Yields (Digest.ofFile path size algorithm config) answer v.pathMap := by
  obtain ⟨file, v₁, hopen, hworking, hmap⟩ := open_file hv path .readOnly hfile
  refine ⟨file, v₁, hworking, fun size algorithm config answer hstream => ?_⟩
  rw [hmap] at hstream
  exact Yields.requirePath hpath (Yields.withFile hopen hstream)

end Files

/-- **The digest of a file is that of its first bytes,** as the standard describes it. It does not
depend on how long the chunks are, nor on what comes behind the bytes, if the machine gives the
buffer; if it does not, that is the error. Of no bytes it is the digest of the empty message, for
which no memory is needed and which for SHA-256 is not the value that stands for no digest. A file
that is too short has none. -/
theorem ofFile_yields [Allocator] {v : MemoryVolume} (hmounted : v.mounted = true)
    (hfaults : v.faults = {}) {path : String} (hpath : path ≠ "") {data : Bytes}
    (hfile : v.contents? path = some data) (config : Config) (algorithm : Algorithm)
    (hchunk : 0 < algorithm.chunkSize config) (size : Nat) :
    let buffer := min size (algorithm.chunkSize config)
    (size ≤ data.length → Allocator.grantsBytes buffer = true →
      v.Yields (Digest.ofFile path size algorithm config)
        (.ok (algorithm.standard (data.take size))) v.pathMap) ∧
    (size ≤ data.length → ¬Allocator.grantsBytes buffer = true →
      v.Yields (Digest.ofFile path size algorithm config)
        (.error (.outOfMemory s!"{buffer} byte digest buffer")) v.pathMap) ∧
    (size = 0 →
      v.Yields (Digest.ofFile path size algorithm config) (.ok (algorithm.standard []))
        v.pathMap ∧
      (algorithm = .sha256 → algorithm.standard [] ≠ algorithm.zeroed)) ∧
    (data.length < size →
      ∃ e, v.Yields (Digest.ofFile path size algorithm config) (.error e) v.pathMap) := by
  intro buffer
  simp only [← Algorithm.digest_eq_standard]
  have hv : v.IsReady := ⟨hmounted, hfaults⟩
  obtain ⟨file, v₁, hworking, hlift⟩ := exists_stream hv hpath (contents?_eq_some.1 hfile)
  refine ⟨?_, ?_, ?_, ?_⟩
  · exact fun hsize hbuffer => hlift _ _ _ _ (stream_yields hworking hchunk hsize hbuffer algorithm)
  · exact fun _ hbuffer => hlift _ _ _ _ (stream_refused hworking.ready hchunk hbuffer algorithm)
  · rintro rfl
    refine ⟨?_, ?_⟩
    · have hbuffer : Allocator.grantsBytes (min 0 (algorithm.chunkSize config)) = true := by
        rw [Nat.zero_min, Allocator.grantsBytes_zero]
      exact hlift _ _ _ _ (stream_yields hworking hchunk (Nat.zero_le _) hbuffer algorithm)
    · rintro rfl
      exact Algorithm.digest_nil_ne_zeroed
  · intro hsize
    obtain ⟨e, hstream⟩ := stream_fails hworking hchunk hsize algorithm
    exact ⟨e, hlift _ _ _ _ hstream⟩

/-- The check value of CRC-32, of the digits from 1 to 9, and the SHA-256 value of the first three
of them, read two bytes at a time from a file that has one byte more; there are not eleven bytes to
be read, and a machine that has two bytes to give has no buffer for chunks of three. -/
theorem ofFile_yields_checkValue :
    let _ : Allocator := .upTo 2 0
    let data : Bytes := [49, 50, 51, 52, 53, 54, 55, 56, 57, 33]
    let v := (newMounted "/lfs").insertFile "/lfs/n" data
    let config : Config := { checksumChunkSize := 2, hashChunkSize := 2 }
    v.mounted = true ∧ v.faults = {} ∧ "/lfs/n" ≠ "" ∧ v.contents? "/lfs/n" = some data ∧
      0 < Algorithm.crc32.chunkSize config ∧
      v.Yields (Digest.ofFile "/lfs/n" 9 .crc32 config) (.ok (.crc32 0xCBF43926)) v.pathMap ∧
      (∃ value, v.Yields (Digest.ofFile "/lfs/n" 3 .sha256 config) (.ok value) v.pathMap ∧
        value.toHex = "a665a45920422f9d417e4867efdc4fb8a04a1f3fff1fa07e998e86f7f7a27ae3") ∧
      (∃ e, v.Yields (Digest.ofFile "/lfs/n" 11 .crc32 config) (.error e) v.pathMap) ∧
      v.Yields (Digest.ofFile "/lfs/n" 3 .sha256 {}) (.error (.outOfMemory "3 byte digest buffer"))
        v.pathMap := by
  intro machine data v config
  have hfile : v.contents? "/lfs/n" = some data := by decide
  have hchecksum : Algorithm.crc32.standard (data.take 9) = .crc32 0xCBF43926 := by
    rw [← Algorithm.digest_eq_standard]
    decide +kernel
  have hhash : (Algorithm.sha256.standard (data.take 3)).toHex =
      "a665a45920422f9d417e4867efdc4fb8a04a1f3fff1fa07e998e86f7f7a27ae3" := by
    rw [← Algorithm.digest_eq_standard]
    decide +kernel
  have hyields := ofFile_yields rfl rfl (by decide) hfile config .crc32 (by decide)
  have hprefix := (hyields 9).1 (by decide) (by decide)
  rw [hchecksum] at hprefix
  have hstart := (ofFile_yields rfl rfl (by decide) hfile config .sha256 (by decide) 3).1
    (by decide) (by decide)
  have hrefused := (ofFile_yields rfl rfl (by decide) hfile {} .sha256 (by decide) 3).2.1
    (by decide) (by decide)
  exact ⟨rfl, rfl, by decide, hfile, by decide, hprefix, ⟨_, hstart, hhash⟩,
    (hyields 11).2.2.2 (by decide), hrefused⟩

end MemoryVolume
end FlashVolume

import FlashVolume.Proofs.Memory.Changes
import FlashVolume.Proofs.Memory.Requests
/-!
# Rewrites under faults

Section 4.4 of the specification: the check of the size behind a `write`.

A write that is checked is right whenever it answers a number, whatever faults are switched on.
Three tests share the work, and each alone lets losses pass:

| loss | found by |
| --- | --- |
| the write takes fewer bytes than it is given | the number it answers |
| the write loses bytes that it said it took | the size of the entry afterwards |
| the close fails | the answer of the close |

The second test works because the file has already been given its new length when it is written
to: a write that keeps `n` bytes of those it took leaves a file of `n` bytes, and not one with the
tail of the old contents (`length_afterWrite`).
-/

namespace FlashVolume
namespace MemoryVolume

open Operation

variable {v v' : MemoryVolume} {file : FileHandle} {f : OpenFile} {old : Bytes} {path : String}

/-- A handle is open on a file with the given contents; nothing is said about faults. -/
structure Holds (v : MemoryVolume) (file : FileHandle) (f : OpenFile) (data : Bytes) : Prop where
  record : v.files.get? file.index = some f
  node : v.nodes[f.path]? = some (.file data)

/-- The data of an open file is what stands at its path. -/
theorem Holds.contents (h : v.Holds file f old) : v.contents? f.path = some old :=
  contents?_eq_some.2 h.node

/-! ### What a write leaves -/

/-- The number of bytes that a write says it took. -/
def taken (faults : Faults) (bytes : Bytes) : Nat :=
  limited bytes.length faults.writeLimit

/-- The number of bytes that a write keeps of those. -/
def stored (faults : Faults) (bytes : Bytes) : Nat :=
  limited (taken faults bytes) faults.silentWriteLimit

/-- The contents of a file after a write at its start. -/
def afterWrite (faults : Faults) (old bytes : Bytes) : Bytes :=
  let written := old.overwrite 0 (bytes.take (stored faults bytes))
  if stored faults bytes < taken faults bytes then written.take (stored faults bytes) else written

/-- A limit never adds. -/
theorem limited_le (n : Nat) (limit : Option Nat) : limited n limit ≤ n := by
  cases limit with
  | none => exact Nat.le_refl n
  | some limit => exact Nat.min_le_left n limit

/-- A write that loses bytes leaves a file that is shorter than what it was given. -/
theorem length_afterWrite {faults : Faults} {bytes : Bytes}
    (hlost : stored faults bytes < taken faults bytes) :
    (afterWrite faults old bytes).length < bytes.length := by
  have htaken : taken faults bytes ≤ bytes.length := limited_le _ _
  rw [afterWrite, if_pos hlost, List.length_take]
  omega

/-- **A write that took everything and left a file of the right length has written everything.** -/
theorem afterWrite_eq {faults : Faults} {bytes : Bytes} (hold : old.length = bytes.length)
    (htaken : taken faults bytes = bytes.length)
    (hlength : (afterWrite faults old bytes).length = bytes.length) :
    afterWrite faults old bytes = bytes := by
  have hkept : ¬stored faults bytes < taken faults bytes := by
    intro hlost
    have hless : (afterWrite faults old bytes).length < bytes.length := length_afterWrite hlost
    omega
  have hstored : bytes.length ≤ stored faults bytes := by omega
  rw [afterWrite, if_neg hkept, List.take_of_length_le hstored]
  exact overwrite_zero_of_length hold

/-! ### Calls under faults -/

/-- A file that has been opened for writing is open at the place where the mode says, and no other
entry has changed. -/
theorem open_creating_holds {mode : OpenMode} (hmode : mode.create = true)
    (h : backend.answer (.open path mode) v = (.ok file, v')) :
    ∃ old, v.pathMap.beforeWrite path = .ok old ∧
      v'.Holds file ⟨path, if mode.append then old.length else 0, mode⟩ old ∧
      v'.pathMap = v.pathMap.update path (some (.file old)) := by
  simp only [backend, answer, MemoryVolume.open, whenMounted, hmode, openAt, if_true] at h
  split at h
  · split at h
    · cases h
    · next old hnode =>
      cases h
      exact ⟨old, PathMap.beforeWrite_eq_ok.2 (.inl hnode), ⟨Handles.get?_add_next _ _, hnode⟩,
        (PathMap.update_eq_self hnode).symm⟩
    · next hfree =>
      split at h
      · cases h
      · next hparent =>
        cases h
        refine ⟨[], PathMap.beforeWrite_eq_ok.2 (.inr ⟨hfree, parent_of_checkParent hparent, rfl⟩),
          ⟨?_, Std.TreeMap.getElem?_insert_self⟩, pathMap_insert rfl⟩
        simp
  · cases h

/-- A file that has been opened for replacing is open at its start. -/
theorem open_replacing (h : backend.answer (.open path .replacing) v = (.ok file, v')) :
    ∃ old, v'.Holds file ⟨path, 0, .replacing⟩ old ∧
      v'.pathMap = v.pathMap.update path (some (.file old)) := by
  obtain ⟨old, -, hholds, hmap⟩ := open_creating_holds rfl h
  exact ⟨old, hholds, hmap⟩

/-- A file that is open for writing can be truncated. -/
theorem Holds.truncate (h : v.Holds file f old) (length : Nat) :
    ∃ v', backend.answer (.truncate file length) v = (.ok (), v') ∧
      v'.Holds file f (old.resize length) ∧
      v'.pathMap = v.pathMap.update f.path (some (.file (old.resize length))) := by
  refine ⟨{ v with nodes := v.nodes.insert f.path (.file (old.resize length)) }, ?_,
    ⟨h.record, Std.TreeMap.getElem?_insert_self⟩, pathMap_insert rfl⟩
  simp only [backend, answer, MemoryVolume.truncate, h.record, h.contents]

/-- A write takes what the limits leave of it. -/
theorem Holds.write (h : v.Holds file ⟨path, 0, .replacing⟩ old) (bytes : Bytes) :
    ∃ v', backend.answer (.write file bytes) v = (.ok (taken v.faults bytes), v') ∧
      v'.pathMap = v.pathMap.update path (some (.file (afterWrite v.faults old bytes))) := by
  have hcontents := h.contents
  refine ⟨{ v with
      nodes := v.nodes.insert path (.file (afterWrite v.faults old bytes))
      files := v.files.set file.index ⟨path, 0 + taken v.faults bytes, .replacing⟩ }, ?_,
    pathMap_insert rfl⟩
  simp only [backend, answer, MemoryVolume.write, h.record, hcontents, OpenMode.replacing,
    Bool.not_true, Bool.false_eq_true, if_false, Nat.zero_add]
  rfl

/-- A write at the end keeps what is there. -/
theorem Holds.write_end {position : Nat} (h : v.Holds file ⟨path, position, .appending⟩ old)
    (bytes : Bytes) :
    ∃ v', backend.answer (.write file bytes) v = (.ok (taken v.faults bytes), v') ∧
      v'.pathMap = v.pathMap.update path
        (some (.file (old ++ bytes.take (stored v.faults bytes)))) := by
  have hcontents := h.contents
  -- What is cut behind the bytes that are kept is nothing.
  have hkept : (if stored v.faults bytes < taken v.faults bytes then
      (old ++ bytes.take (stored v.faults bytes)).take (old.length + stored v.faults bytes)
      else old ++ bytes.take (stored v.faults bytes)) =
        old ++ bytes.take (stored v.faults bytes) := by
    have hlength : (old ++ bytes.take (stored v.faults bytes)).length ≤
        old.length + stored v.faults bytes := by
      rw [List.length_append, List.length_take]
      omega
    rw [List.take_of_length_le hlength, ite_self]
  refine ⟨{ v with
      nodes := v.nodes.insert path (.file (old ++ bytes.take (stored v.faults bytes)))
      files := v.files.set file.index
        ⟨path, old.length + taken v.faults bytes, .appending⟩ }, ?_, pathMap_insert rfl⟩
  rw [← hkept]
  simp only [backend, answer, MemoryVolume.write, h.record, hcontents, OpenMode.appending,
    Bool.not_true, Bool.false_eq_true, if_false, if_true, overwrite_end]
  rfl

/-- Closing leaves the entries as they are, whether it fails or not. -/
theorem pathMap_close (file : FileHandle) (v : MemoryVolume) :
    (backend.answer (.close file) v).2.pathMap = v.pathMap :=
  rfl

/-! ### The operation -/

/-- What writing all of the data to a file that has its length leaves, if it succeeds. -/
theorem Holds.writeAll_ok (h : v.Holds file ⟨path, 0, .replacing⟩ old) {data : Bytes} {n : Nat}
    (hrun : runOn backend (File.writeAll file data) v = (.ok n, v')) :
    n = data.length ∧ taken v.faults data = data.length ∧
      v'.pathMap = v.pathMap.update path (some (.file (afterWrite v.faults old data))) := by
  obtain ⟨v₁, hwrite, hmap⟩ := h.write data
  obtain ⟨written, v₂, hrequest, hrest⟩ := runOn_bind_ok hrun
  rw [runOn_request_ok hrequest] at hwrite
  cases hwrite
  by_cases hall : taken v.faults data = data.length
  · simp only [hall, ne_eq, not_true_eq_false, if_false, runOn_pure, Prod.mk.injEq,
      Except.ok.injEq] at hrest
    obtain ⟨rfl, rfl⟩ := hrest
    exact ⟨rfl, hall, hmap⟩
  · simp [hall] at hrest

/-- The check of the size passes only if there is an entry of that size. -/
theorem runOn_verifySize_ok {desired : Nat}
    (h : runOn backend (File.verifySize path desired) v = (.ok (), v')) :
    v' = v ∧ ∃ node, v.pathMap path = some node ∧
      (node.toEntry (Path.fileName path)).size = desired := by
  simp only [File.verifySize, File.size, runOn_bind, runOn_observe, runOn_requirePath,
    runOn_requestOr] at h
  by_cases hempty : path.isEmpty
  · simp [hempty] at h
  · simp only [hempty, if_false, Bool.false_eq_true, backend, answer, stat, whenMounted] at h
    by_cases hmounted : v.mounted = true
    · cases hnode : v.nodes[path]? with
      | none => simp [hmounted, hnode] at h
      | some node =>
        by_cases hsize : (node.toEntry (Path.fileName path)).size = desired
        · simp [hmounted, hnode, hsize] at h
          exact ⟨h.symm, node, hnode, hsize⟩
        · simp [hmounted, hnode, hsize] at h
    · simp [hmounted] at h

/-- **A rewrite that is checked is never silently wrong.**  Whatever faults are switched on and
whatever the file was before: if the write answers a number, it is that of all the data, the file
holds the data and nothing else, and every other path has what it had. -/
theorem write_ok_of_checksSize {config : Config} (hcheck : config.checksSize = true)
    {data : Bytes} {n : Nat} (h : runOn backend (File.write path data config) v = (.ok n, v')) :
    n = data.length ∧ v'.contents? path = some data ∧
      ∀ other, other ≠ path → v'.nodes[other]? = v.nodes[other]? := by
  obtain ⟨⟨⟩, v₀, hpath, hrest⟩ := runOn_bind_ok h
  obtain ⟨written, v₄, hfile, hcheckAndReturn⟩ := runOn_bind_ok hrest
  -- The path is not empty, and nothing has been done to the volume before the file is opened.
  obtain rfl : v₀ = v := by
    rw [runOn_requirePath] at hpath
    split at hpath <;> cases hpath
    rfl
  obtain ⟨file, v₁, v₃, hopen, hwork, hclose⟩ := runOn_withFile_ok hfile
  obtain ⟨old, hholds, hopened⟩ := open_replacing hopen
  -- The file is given its length.
  obtain ⟨⟨⟩, v₂, htruncate, hwork⟩ := runOn_bind_ok hwork
  obtain ⟨v₂', htruncate', hholds₂, hresized⟩ := hholds.truncate data.length
  rw [runOn_request_ok htruncate] at htruncate'
  cases htruncate'
  -- The data is written, and the handle closed.
  obtain ⟨rfl, htaken, hwritten⟩ := hholds₂.writeAll_ok hwork
  have hclosed : v₄.pathMap = v₃.pathMap := by
    rw [← pathMap_close file v₃, hclose]
  have hmap : v₄.pathMap = v₀.pathMap.update path
      (some (.file (afterWrite v₂.faults (old.resize data.length) data))) := by
    rw [hclosed, hwritten, hresized, hopened, PathMap.update_update, PathMap.update_update]
  -- The size of the entry is looked at.
  rw [if_pos hcheck] at hcheckAndReturn
  obtain ⟨⟨⟩, v₅, hverify, hreturn⟩ := runOn_bind_ok hcheckAndReturn
  obtain ⟨rfl, node, hnode, hsize⟩ := runOn_verifySize_ok hverify
  simp only [runOn_pure, Prod.mk.injEq, Except.ok.injEq] at hreturn
  obtain ⟨rfl, rfl⟩ := hreturn
  rw [hmap, PathMap.update_self] at hnode
  cases hnode
  have hdata : afterWrite v₂.faults (old.resize data.length) data = data :=
    afterWrite_eq (Bytes.length_resize old data.length) htaken hsize
  rw [hdata] at hmap
  refine ⟨rfl, contents?_eq_some.2 ?_, ?_⟩
  · exact (congrFun hmap path).trans (PathMap.update_self _ _ _)
  · intro other hother
    exact (congrFun hmap other).trans (if_neg hother)

/-- A longer file is replaced under faults that let just as many bytes pass. -/
theorem write_ok_of_limits :
    let v := ((newMounted "/lfs").insertFile "/lfs/a" [9, 9, 9, 9, 9]).setFaults
      { writeLimit := some 3, silentWriteLimit := some 3, readLimit := some 0,
        failUnlinkAt := some 1, failReaddirAt := some 1 }
    let result := runOn backend (File.write "/lfs/a" [1, 2, 3] {}) v
    ({} : Config).checksSize = true ∧ result.1 = .ok 3 ∧
      result.2.contents? "/lfs/a" = some [1, 2, 3] := by
  intro v result
  have hanswer : result.1 = .ok 3 := by decide
  have hrun : runOn backend (File.write "/lfs/a" [1, 2, 3] {}) v = (.ok 3, result.2) :=
    Prod.ext hanswer rfl
  exact ⟨rfl, hanswer, (write_ok_of_checksSize rfl hrun).2.1⟩

end MemoryVolume
end FlashVolume

import FlashVolume.Proofs.Path.Names
import FlashVolume.Word
import Mathlib.Tactic.SplitIfs
/-!
# The longest path

The sizes of a configuration are sizes of buffers that hold a terminator, and section 10.5 of the
specification derives three limits from them:

| what | bytes |
| --- | --- |
| a directory | `maxPathSize - 1` |
| a name | `maxFileNameSize - 1` |
| a directory, a separator and a name | `maxPathSize + maxFileNameSize - 2` |

The last one is the two buffers without their terminators, and the separator takes one of those
bytes. So a name resolves in a directory, each of them within its own limit, unless both are as long
as they may be (`resolve_within_limits`); that pair there is under every configuration, and so the
three limits do not add up (`not_resolve_at_limits`).
-/

namespace FlashVolume

namespace Config

variable {config : Config}

/-- Without an overflow the longest path has the bytes of both buffers without the terminators. -/
theorem maxAbsPathLength_eq (hsum : config.sizeSum ≤ Word.maxUnsigned64) :
    config.maxAbsPathLength = .ok (config.sizeSum - 2) :=
  maxAbsPathLength_eq_ok_iff.2 ⟨hsum, rfl⟩

/-- Under a configuration that is accepted, a directory can have two bytes and a name one. -/
theorem sizes_of_validate (h : config.validate = .ok ()) :
    3 ≤ config.maxPathSize.toNat ∧ 2 ≤ config.maxFileNameSize.toNat := by
  have hdefect := defect?_of_validate h
  rw [defect?] at hdefect
  split_ifs at hdefect with hstart hsegment hpath hname hchunk
  have hsize : ¬config.maxFileNameSize.toNat < 2 := hname
  omega

end Config

namespace Path

/-- There is a text of every length. -/
theorem exists_byteLength (n : Nat) : ∃ s : String, Text.byteLength s = n := by
  refine ⟨String.ofList (List.replicate n 'a'), ?_⟩
  induction n with
  | zero => rfl
  | succ n ih =>
    rw [List.replicate_succ, Text.byteLength, String.ofList_cons, String.utf8ByteSize_append]
    rw [Text.byteLength] at ih
    rw [ih, String.utf8ByteSize_singleton, Nat.add_comm]
    rfl

/-- **A directory and a name that are within their limits resolve,** unless both are as long as
they may be: their path is one byte longer than the longest one then. Such a directory and such a
name there are under every configuration that is accepted. -/
theorem resolve_within_limits {config : Config} (hvalid : config.validate = .ok ())
    (hsum : config.sizeSum ≤ Word.maxUnsigned64) :
    (∀ dir name, dir ≠ "" → name ≠ "" →
      Text.byteLength dir ≤ config.maxPathSize.toNat - 1 →
      Text.byteLength name ≤ config.maxFileNameLength →
      resolve dir name config =
        if Text.byteLength dir = config.maxPathSize.toNat - 1 ∧
            Text.byteLength name = config.maxFileNameLength then
          .error (.tooLong (config.sizeSum - 1) (config.sizeSum - 2))
        else .ok (dir ++ "/" ++ name)) ∧
      config.maxAbsPathLength = .ok (config.sizeSum - 2) ∧
      ∃ dir name, dir ≠ "" ∧ name ≠ "" ∧
        Text.byteLength dir = config.maxPathSize.toNat - 1 ∧
        Text.byteLength name = config.maxFileNameLength := by
  obtain ⟨hpathSize, hnameSize⟩ := Config.sizes_of_validate hvalid
  have hlongest := Config.maxAbsPathLength_eq hsum
  have hlongestName : config.maxFileNameLength = config.maxFileNameSize.toNat - 1 := rfl
  have hsizes : config.sizeSum = config.maxPathSize.toNat + config.maxFileNameSize.toNat := rfl
  refine ⟨?_, hlongest, ?_⟩
  · intro dir name hdir hname hdirLength hnameLength
    have hwhole := byteLength_joined dir name
    rw [resolve_eq hlongest hdir hname, if_neg (by omega)]
    by_cases hboth : Text.byteLength dir = config.maxPathSize.toNat - 1 ∧
        Text.byteLength name = config.maxFileNameLength
    · have hover : Text.byteLength (dir ++ "/" ++ name) = config.sizeSum - 1 := by
        omega
      rw [if_pos hboth, hover, if_pos (by omega)]
    · rw [if_neg hboth, if_neg (by omega)]
  · obtain ⟨dir, hdir⟩ := exists_byteLength (config.maxPathSize.toNat - 1)
    obtain ⟨name, hname⟩ := exists_byteLength config.maxFileNameLength
    refine ⟨dir, name, ?_, ?_, hdir, hname⟩
    · rintro rfl
      have hzero : Text.byteLength "" = 0 := rfl
      omega
    · rintro rfl
      have hzero : Text.byteLength "" = 0 := rfl
      omega

/-- Where directories have up to seven bytes and names up to five, a name of four bytes resolves in
the longest directory, and one of five does not. -/
theorem resolve_within_limits_short :
    let config : Config := { maxPathSize := 8, maxFileNameSize := 6 }
    config.validate = .ok () ∧
      resolve "/lfs/ab" "a.tx" config = .ok "/lfs/ab/a.tx" ∧
      resolve "/lfs/ab" "a.txt" config = .error (.tooLong 13 12) := by
  intro config
  have hvalid : config.validate = .ok () := by decide
  have hresolve := (resolve_within_limits hvalid (by decide)).1
  refine ⟨hvalid, ?_, ?_⟩
  · exact (hresolve "/lfs/ab" "a.tx" (by decide) (by decide) (by decide) (by decide)).trans
      (if_neg (by decide))
  · exact (hresolve "/lfs/ab" "a.txt" (by decide) (by decide) (by decide) (by decide)).trans
      (if_pos (by decide))

/-- **Not every name within its limit resolves in a directory within its own:** the longest path is
not the longest directory, a separator and the longest name. -/
theorem not_resolve_at_limits :
    ¬∀ (config : Config) (dir name : String), config.validate = .ok () →
      config.sizeSum ≤ Word.maxUnsigned64 →
      dir ≠ "" → name ≠ "" →
      Text.byteLength dir ≤ config.maxPathSize.toNat - 1 →
      Text.byteLength name ≤ config.maxFileNameLength →
      resolve dir name config = .ok (dir ++ "/" ++ name) := by
  intro h
  have hresolve := h { maxPathSize := 8, maxFileNameSize := 6 } "/lfs/ab" "a.txt" (by decide)
    (by decide) (by decide) (by decide) (by decide) (by decide)
  exact absurd hresolve (by decide)

end Path
end FlashVolume

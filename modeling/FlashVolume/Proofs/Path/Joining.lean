import FlashVolume.Proofs.Path.Names
import FlashVolume.Proofs.Request
/-!
# A directory and a name, joined or refused

Section 4.2 of the specification: `join` tells what it cuts.

Joining cuts a path that is too long, and tells by two lengths that it has: that of what is left and
that of the whole path. A cut may leave fewer bytes than there is room for, as it does not split a
character, but never as many as the whole path has, so the lengths differ exactly if something is
missing (`joinsWithin_join`).

Resolving refuses what joining would cut, and four faults can come together:

| fault | comes |
| --- | --- |
| the name is too long | first, also where the directory is empty |
| there is no longest path, as the sum of the sizes overflows | second |
| the directory or the name is empty | third |
| the path is too long | last |

An operation on a name in a directory that does not resolve is that error and nothing else: it makes
no call (`Request.run_of_resolve_error`).
-/

namespace FlashVolume
namespace Path

/-- A directory and a name, joined within a capacity. -/
structure JoinsWithin (dir name : String) (capacity : Nat) (joined : Joined) : Prop where
  required : joined.required = Text.byteLength dir + 1 + Text.byteLength name
  longest : Text.IsLongestStart capacity (dir ++ "/" ++ name) joined.path
  isTruncated_iff : joined.isTruncated = true ↔ capacity < joined.required
  /-- The cut is made where going back from the capacity comes to a boundary. -/
  cut : Text.encode joined.path = (Text.encode (dir ++ "/" ++ name)).take
    (Text.cutBack (Text.encode (dir ++ "/" ++ name)) capacity)
  boundary : Text.IsBoundary (Text.encode (dir ++ "/" ++ name)) (Text.byteLength joined.path)

/-- **As much of the path is kept as fits,** and it is seen whether that is all of it. -/
theorem joinsWithin_join {dir name : String} (hdir : dir ≠ "") (hname : name ≠ "")
    (capacity : Nat) :
    ∃ joined, join dir name capacity = .ok joined ∧ JoinsWithin dir name capacity joined := by
  have hlongest := Text.isLongestStart_takeBytes capacity (dir ++ "/" ++ name)
  have hwhole := byteLength_joined dir name
  refine ⟨_, if_neg (by simp [hdir, hname]), rfl, hlongest, ?_, Text.encode_takeBytes _ _, ?_⟩
  · rw [Joined.isTruncated, decide_eq_true_iff, ← hwhole]
    constructor
    · -- A path that fits is kept whole.
      intro hless
      by_contra hfits
      rw [Text.takeBytes_of_fits (Nat.le_of_not_lt hfits)] at hless
      exact Nat.lt_irrefl _ hless
    · exact Nat.lt_of_le_of_lt hlongest.fits
  · exact Text.isBoundary_encode_iff.2 ⟨_, hlongest.isPrefix, rfl⟩

/-- **What `resolve` answers,** whichever of its arguments are faulty. -/
theorem resolve_cases (dir name : String) (config : Config) :
    resolve dir name config =
      if config.maxFileNameLength < Text.byteLength name then
        .error (.tooLong (Text.byteLength name) config.maxFileNameLength)
      else match config.maxAbsPathLength with
        | .error e => .error e
        | .ok bound =>
          if dir = "" ∨ name = "" then .error (.invalidInput "missing directory or name")
          else if bound < Text.byteLength dir + 1 + Text.byteLength name then
            .error (.tooLong (Text.byteLength dir + 1 + Text.byteLength name) bound)
          else .ok (dir ++ "/" ++ name) := by
  cases hbound : config.maxAbsPathLength with
  | error e => exact resolve_of_overflow hbound dir name
  | ok bound =>
    by_cases hempty : dir = "" ∨ name = ""
    · have hjoin : join dir name bound = .error (.invalidInput "missing directory or name") :=
        if_pos (by simpa using hempty)
      simp only [resolve, hbound, bind, Except.bind, hjoin, if_pos hempty]
    · obtain ⟨hdir, hname⟩ := not_or.1 hempty
      rw [resolve_eq hbound hdir hname, byteLength_joined]
      simp only [if_neg hempty]

end Path

namespace Request

/-- The directory and the name of the entry that the request is about, if it names it by these. -/
def place? : Request → Option (String × String)
  | readIn dir name _ => some (dir, name)
  | writeIn dir name _ => some (dir, name)
  | appendIn dir name _ => some (dir, name)
  | deleteIn dir name => some (dir, name)
  | sizeIn dir name => some (dir, name)
  | digestIn dir name _ _ => some (dir, name)
  | make dir name => some (dir, name)
  | _ => none

/-- An operation on a name that does not resolve is the error, and so is what is made of its
answer. -/
theorem run_inDirectory_of_error {α β : Type} {dir name : String} {config : Config} {e : Error}
    (h : Path.resolve dir name config = .error e) (work : String → Operation α) (f : α → β) :
    (f <$> File.inDirectory dir name config work).run = .ret (.error e) := by
  rw [File.inDirectory, h]
  rfl

/-- **A request for a name that does not resolve makes no call.** -/
theorem run_of_resolve_error [Allocator] {config : Config} {request : Request} {dir name : String}
    {e : Error}
    (hplace : request.place? = some (dir, name)) (h : Path.resolve dir name config = .error e) :
    (request.operation config).run = .ret (.error e) := by
  cases request <;> cases hplace <;> exact run_inDirectory_of_error h _ _

end Request

namespace Path

/-- **Joining cuts exactly, and resolving accepts exactly what is not cut.**  A directory and a name
that are not empty are joined to the longest beginning of `dir ++ "/" ++ name` within the capacity,
together with the length of the whole; it has been cut if and only if that is more than the
capacity, and the cut is at a boundary of the text, found by going back from the capacity. `resolve`
refuses, in this order, a name that is too long, a part that is missing and a path that is too long,
and answers the whole path otherwise; an overflow of the bound comes behind the first of these.
Where it refuses, no operation on a name in a directory makes a call. -/
theorem joined_exactly [Allocator] :
    (∀ dir name capacity, dir ≠ "" → name ≠ "" →
      ∃ joined, join dir name capacity = .ok joined ∧ JoinsWithin dir name capacity joined) ∧
    (∀ dir name config, resolve dir name config =
      if config.maxFileNameLength < Text.byteLength name then
        .error (.tooLong (Text.byteLength name) config.maxFileNameLength)
      else match config.maxAbsPathLength with
        | .error e => .error e
        | .ok bound =>
          if dir = "" ∨ name = "" then .error (.invalidInput "missing directory or name")
          else if bound < Text.byteLength dir + 1 + Text.byteLength name then
            .error (.tooLong (Text.byteLength dir + 1 + Text.byteLength name) bound)
          else .ok (dir ++ "/" ++ name)) ∧
    ∀ (config : Config) (request : Request) dir name e, request.place? = some (dir, name) →
      resolve dir name config = .error e → (request.operation config).run = .ret (.error e) := by
  refine ⟨fun dir name capacity hdir hname => joinsWithin_join hdir hname capacity,
    resolve_cases, ?_⟩
  exact fun config request dir name e hplace h => Request.run_of_resolve_error hplace h

/-- The capacity falls into the second character of a name, and a name of one byte too many is
refused before anything is written. -/
theorem joined_exactly_accents :
    let _ : Allocator := .upTo 1024 16
    let long := String.ofList (List.replicate 64 'n')
    join "/lfs" "ééé" 8 = .ok ⟨"/lfs/é", 11⟩ ∧ JoinsWithin "/lfs" "ééé" 8 ⟨"/lfs/é", 11⟩ ∧
      resolve "/lfs" long {} = .error (.tooLong 64 63) ∧
      ((Request.writeIn "/lfs" long [120]).operation {}).run = .ret (.error (.tooLong 64 63)) := by
  intro machine long
  obtain ⟨joined, hjoin, hwithin⟩ := joined_exactly.1 "/lfs" "ééé" 8 (by decide) (by decide)
  have hcut : join "/lfs" "ééé" 8 = .ok ⟨"/lfs/é", 11⟩ := by decide +kernel
  obtain rfl : joined = ⟨"/lfs/é", 11⟩ := Except.ok.inj (hjoin.symm.trans hcut)
  have hlong : resolve "/lfs" long {} = .error (.tooLong 64 63) :=
    (joined_exactly.2.1 "/lfs" long {}).trans (if_pos (by decide +kernel))
  exact ⟨hcut, hwithin, hlong,
    joined_exactly.2.2 {} (.writeIn "/lfs" long [120]) "/lfs" long _ rfl hlong⟩

end Path
end FlashVolume

import FlashVolume.Directory
import FlashVolume.Proofs.Path.Canonical
import FlashVolume.Proofs.Path.Joining
import FlashVolume.Proofs.Path.Limits
import FlashVolume.Proofs.Storage.Runs
/-!
# Paths that are too long

Sections 7 and 10.5 of the specification: `TooLong` and `max_abs_path_len`.

Two sizes of a configuration bound a path: it may be as long as their sum, less two. The sum is
taken in a word of 64 bits, and a configuration is accepted however large its sizes are:

| sum of the sizes | longest path | `resolve`, `makePath` |
| --- | --- | --- |
| up to `2 ^ 64 - 1` | the sum, less 2 | refuse what is longer |
| from `2 ^ 64` on | there is none | stop with an overflow |

So a path is refused as too long only if it is longer than the sum, less two, and there is such a
length as long as the sum fits into its word (`longestPath_exact_iff`); a size that is enlarged
beyond it stops the operations on paths that were allowed (`not_longestPath_exact`).
-/

namespace FlashVolume

namespace Config

variable {config : Config}

/-- Larger sizes are no defect. -/
theorem validate_of_le (hvalid : config.validate = .ok ()) {pathSize nameSize : UInt64}
    (hpath : config.maxPathSize ≤ pathSize) (hname : config.maxFileNameSize ≤ nameSize) :
    { config with maxPathSize := pathSize, maxFileNameSize := nameSize }.validate = .ok () := by
  have hdefect := defect?_of_validate hvalid
  rw [defect?] at hdefect
  split_ifs at hdefect with hstart hsegment hpathSize hnameSize hchunk
  have hpathSize' : ¬pathSize.toNat ≤ Text.byteLength config.mountPoint := fun hle =>
    hpathSize (Nat.le_trans (UInt64.le_iff_toNat_le.1 hpath) hle)
  have hnameSize' : ¬nameSize < 2 := fun hlt => hnameSize (UInt64.lt_of_le_of_lt hname hlt)
  rw [validate, defect?, if_neg hstart, if_neg hsegment, if_neg hpathSize', if_neg hnameSize',
    if_neg hchunk]

end Config

/-! ### What is refused -/

namespace Path

/-- **A path is refused as too long if and only if it is.** -/
theorem normalize_tooLong_iff {path : String} {bound length limit : Nat} :
    normalize path bound = .error (.tooLong length limit) ↔
      bound < Text.byteLength path ∧ length = Text.byteLength path ∧ limit = bound := by
  by_cases hpath : path = ""
  · subst hpath
    refine iff_of_false (fun h => ?_) fun h => Nat.not_lt_zero _ h.1
    cases h
  · by_cases hlong : bound < Text.byteLength path
    · have hempty : ¬path.isEmpty = true := by simpa using hpath
      rw [normalize, if_neg hempty, if_pos hlong]
      simp [hlong, eq_comm]
    · rw [normalize_eq hpath (Nat.le_of_not_lt hlong)]
      refine iff_of_false (fun h => ?_) fun h => hlong h.1
      cases hclean : normalizeChars path.toList with
      | none => rw [hclean] at h; cases h
      | some clean => rw [hclean] at h; cases h

/-- The bound does not matter to a path that is within it. -/
theorem normalize_congr {path : String} {bound bound' : Nat} (h : Text.byteLength path ≤ bound)
    (h' : Text.byteLength path ≤ bound') : normalize path bound = normalize path bound' := by
  by_cases hpath : path = ""
  · subst hpath
    rfl
  · rw [normalize_eq hpath h, normalize_eq hpath h']

/-- A name is refused as too long for its own length or for that of its path. -/
theorem long_of_resolve {dir name : String} {config : Config} {length limit : Nat}
    (h : resolve dir name config = .error (.tooLong length limit)) :
    config.maxFileNameLength < Text.byteLength name ∨
      config.sizeSum - 2 < Text.byteLength (dir ++ "/" ++ name) := by
  cases hbound : config.maxAbsPathLength with
  | error e =>
    obtain ⟨-, rfl⟩ := Config.maxAbsPathLength_eq_error_iff.1 hbound
    rw [resolve_of_overflow hbound] at h
    split at h
    · next hname => exact .inl hname
    · cases h
  | ok bound =>
    obtain ⟨-, rfl⟩ := Config.maxAbsPathLength_eq_ok_iff.1 hbound
    simp only [resolve_cases, hbound] at h
    split_ifs at h with hname hempty hpath
    · exact .inl hname
    · cases h
    · exact .inr (byteLength_joined dir name ▸ hpath)

end Path

namespace Operation

variable {α β : Type}

/-- However the volume answers, the operation does not refuse anything as too long. -/
def TakesAnyLength (p : Operation α) : Prop :=
  ∀ events length limit, ¬p.Makes events (.error (.tooLong length limit))

/-- Nothing to do refuses no length. -/
theorem takesAnyLength_pure (a : α) : TakesAnyLength (pure a : Operation α) := by
  intro events length limit h
  cases (makes_pure h).2

/-- Another error refuses no length. -/
theorem takesAnyLength_throw {e : Error} (he : ∀ length limit, e ≠ .tooLong length limit) :
    TakesAnyLength (throw e : Operation α) := by
  intro events length limit h
  exact he length limit (Except.error.inj (makes_throw h).2).symm

/-- No volume answers with the error of a path that is too long. -/
theorem takesAnyLength_attempt (c : Call α) : TakesAnyLength (attempt c) := by
  intro events length limit h
  obtain ⟨answer, -, hanswer⟩ := makes_attempt h
  cases hanswer

/-- No call is answered that something is too long. -/
theorem takesAnyLength_request (c : Call α) : TakesAnyLength (request c) := by
  intro events length limit h
  obtain ⟨answer, -, hanswer⟩ : ∃ answer, events = [⟨c, answer⟩] ∧
      .error (.tooLong length limit) = answer.mapError Error.ofStorage := makes_requestOr h
  cases answer with
  | ok a => cases hanswer
  | error e => cases e <;> cases hanswer

/-- Two steps that refuse no length refuse none together. -/
theorem TakesAnyLength.bind {p : Operation α} {f : α → Operation β} (hp : p.TakesAnyLength)
    (hf : ∀ a, (f a).TakesAnyLength) : TakesAnyLength (p >>= f) := by
  intro events length limit h
  rcases makes_bind h with ⟨e, hfirst, he⟩ | ⟨before, after, a, -, -, hrest⟩
  · obtain rfl := Except.error.inj he
    exact hp events length limit hfirst
  · exact hf a after length limit hrest

/-- A choice between two that refuse no length refuses none. -/
theorem TakesAnyLength.ite {c : Prop} [Decidable c] {p q : Operation α} (hp : p.TakesAnyLength)
    (hq : q.TakesAnyLength) : TakesAnyLength (if c then p else q) := by
  split
  · exact hp
  · exact hq

end Operation

namespace Directory

open Operation

/-- What is there decides over a directory that is to be made, and not the length of its path. -/
theorem takesAnyLength_unless (entry : Entry) (path : String) :
    TakesAnyLength (if entry.kind = .file then throw (.notADirectory path) else pure ()) :=
  .ite (takesAnyLength_throw nofun) (takesAnyLength_pure ())

/-- A stage is made or not, whatever its length. -/
theorem takesAnyLength_makeStage (path : String) : (makeStage path).TakesAnyLength := by
  refine (takesAnyLength_attempt _).bind fun answer => ?_
  cases answer with
  | ok entry => exact takesAnyLength_unless entry path
  | error e => exact takesAnyLength_request _

/-- Only the normalizer has looked at the length before the stages are made. -/
theorem takesAnyLength_forM_makeStage (stages : List String) :
    (stages.forM makeStage).TakesAnyLength := by
  induction stages with
  | nil => exact takesAnyLength_pure ()
  | cons stage stages ih => exact (takesAnyLength_makeStage stage).bind fun _ => ih

variable {path : String} {recursive : Bool} {config : Config} {events : List Event}

/-- A path that has no clean form is the error, and no call is made. -/
theorem makes_makePath_of_error {e : Error} (h : Path.normalizeWithin path config = .error e)
    {answer : Except Error Unit} :
    (makePath path recursive config).Makes events answer ↔ events = [] ∧ answer = .error e := by
  rw [makePath, h]
  constructor
  · exact fun hmakes => makes_throw (α := Unit) hmakes
  · rintro ⟨rfl, rfl⟩
    exact .start _

/-- A path that has a clean form is not refused for its length any more. -/
theorem takesAnyLength_makePath {clean : String}
    (h : Path.normalizeWithin path config = .ok clean) (recursive : Bool) :
    (makePath path recursive config).TakesAnyLength := by
  have hstages := fun _ : Unit => takesAnyLength_forM_makeStage
    (if recursive then Path.stages (Path.trimSeparators clean) else [Path.trimSeparators clean])
  rw [makePath, h]
  refine (takesAnyLength_attempt (.stat clean)).bind fun answer => ?_
  cases answer with
  | ok entry => exact takesAnyLength_unless entry clean
  | error e =>
    exact .ite ((takesAnyLength_throw (e := .invalidInput path) nofun).bind hstages) (hstages ())

/-- **Making a directory is refused for the length of its path if and only if that is too long,**
and before any call is made. -/
theorem makes_makePath_tooLong_iff {bound length limit : Nat}
    (hbound : config.maxAbsPathLength = .ok bound) :
    (makePath path recursive config).Makes events (.error (.tooLong length limit)) ↔
      bound < Text.byteLength path ∧ events = [] ∧ length = Text.byteLength path ∧
        limit = bound := by
  have hwithin : Path.normalizeWithin path config = Path.normalize path bound := by
    rw [Path.normalizeWithin, hbound]
    rfl
  cases hclean : Path.normalize path bound with
  | error e =>
    rw [makes_makePath_of_error (hwithin.trans hclean), Except.error.injEq]
    constructor
    · rintro ⟨rfl, rfl⟩
      obtain ⟨hlong, hlength, hlimit⟩ := Path.normalize_tooLong_iff.1 hclean
      exact ⟨hlong, rfl, hlength, hlimit⟩
    · rintro ⟨hlong, rfl, rfl, rfl⟩
      rw [Path.normalize_tooLong_iff.2 ⟨hlong, rfl, rfl⟩] at hclean
      exact ⟨rfl, Except.error.inj hclean⟩
  | ok clean =>
    have hfits := (Path.fits_of_normalize hclean).2
    exact iff_of_false (takesAnyLength_makePath (hwithin.trans hclean) recursive _ _ _)
      fun h => Nat.not_lt.2 hfits h.1

/-- The configuration does not matter to a path that is not too long. -/
theorem makePath_congr {config' : Config} (h : config.AllowsPath (Text.byteLength path))
    (h' : config'.AllowsPath (Text.byteLength path)) (recursive : Bool) :
    makePath path recursive config = makePath path recursive config' := by
  obtain ⟨bound, hbound, hle⟩ := h
  obtain ⟨bound', hbound', hle'⟩ := h'
  rw [makePath, makePath, Path.normalizeWithin, Path.normalizeWithin, hbound, hbound']
  exact congrArg (ofExcept · >>= _) (Path.normalize_congr hle hle')

end Directory

namespace Config

variable {config larger : Config}

/-- Nothing is refused as too long that is not longer than the bound, a name that is too long itself
apart. -/
structure RefusesOnlyLonger (config : Config) (bound : Nat) : Prop where
  resolve : ∀ dir name length limit,
    Path.resolve dir name config = .error (.tooLong length limit) →
      config.maxFileNameLength < Text.byteLength name ∨
        bound < Text.byteLength (dir ++ "/" ++ name)
  makePath : ∀ path recursive events length limit,
    (Directory.makePath path recursive config).Makes events (.error (.tooLong length limit)) →
      bound < Text.byteLength path

/-- **Only what is longer than the sum, less two, is refused,** whether the sum fits or not. -/
theorem refusesOnlyLonger_sizeSum : config.RefusesOnlyLonger (config.sizeSum - 2) where
  resolve := fun _ _ _ _ => Path.long_of_resolve
  makePath := by
    intro path recursive events length limit h
    cases hbound : config.maxAbsPathLength with
    | error e =>
      obtain ⟨-, rfl⟩ := maxAbsPathLength_eq_error_iff.1 hbound
      have hclean : Path.normalizeWithin path config = .error .overflow := by
        rw [Path.normalizeWithin, hbound]
        rfl
      cases ((Directory.makes_makePath_of_error hclean).1 h).2
    | ok bound =>
      obtain ⟨-, rfl⟩ := maxAbsPathLength_eq_ok_iff.1 hbound
      exact ((Directory.makes_makePath_tooLong_iff hbound).1 h).1

/-- If the sum fits, there is a path that is not longer than any larger bound and is refused. -/
theorem refusesOnlyLonger_iff (hsum : config.sizeSum ≤ Word.maxUnsigned64) {bound : Nat} :
    config.RefusesOnlyLonger bound ↔ bound ≤ config.sizeSum - 2 := by
  constructor
  · intro h
    obtain ⟨path, hlength⟩ := Path.exists_byteLength (config.sizeSum - 2 + 1)
    have hlong : config.sizeSum - 2 < Text.byteLength path := by omega
    have hlonger := h.makePath path true _ _ _
      ((Directory.makes_makePath_tooLong_iff (maxAbsPathLength_eq hsum)).2 ⟨hlong, rfl, rfl, rfl⟩)
    omega
  · intro hbound
    refine ⟨fun dir name length limit h => ?_, fun path recursive events length limit h => ?_⟩
    · exact (refusesOnlyLonger_sizeSum.resolve _ _ _ _ h).imp_right (Nat.lt_of_le_of_lt hbound)
    · exact Nat.lt_of_le_of_lt hbound (refusesOnlyLonger_sizeSum.makePath _ _ _ _ _ h)

/-- Nothing that needs the longest path is answered: a name that is not too long itself does not
resolve, and no directory is made, both with an overflow. -/
structure Stops (config : Config) : Prop where
  resolve : ∀ dir name, Text.byteLength name ≤ config.maxFileNameLength →
    Path.resolve dir name config = .error .overflow
  makePath : ∀ path recursive events answer,
    (Directory.makePath path recursive config).Makes events answer ↔
      events = [] ∧ answer = .error .overflow

/-- **Everything stops exactly if the sum does not fit.** -/
theorem stops_iff : config.Stops ↔ Word.maxUnsigned64 < config.sizeSum := by
  constructor
  · intro h
    have hempty := h.resolve "" "" (Nat.zero_le _)
    exact (maxAbsPathLength_eq_error_iff.1 (Path.maxAbsPathLength_of_resolve hempty)).1
  · intro hsum
    have hbound : config.maxAbsPathLength = .error .overflow :=
      maxAbsPathLength_eq_error_iff.2 ⟨hsum, rfl⟩
    refine ⟨fun dir name hname => ?_, fun path recursive events answer => ?_⟩
    · rw [Path.resolve_of_overflow hbound, if_neg (Nat.not_lt.2 hname)]
    · refine Directory.makes_makePath_of_error ?_
      rw [Path.normalizeWithin, hbound]
      rfl

/-- What is not refused under a configuration is not refused under the other one, and comes to the
same. -/
structure StaysAllowed (config larger : Config) : Prop where
  resolve : ∀ dir name path,
    Path.resolve dir name config = .ok path → Path.resolve dir name larger = .ok path
  makePath : ∀ path recursive, config.AllowsPath (Text.byteLength path) →
    Directory.makePath path recursive larger = Directory.makePath path recursive config

/-- Larger limits allow what smaller ones do. -/
theorem staysAllowed_of_le (hname : config.maxFileNameLength ≤ larger.maxFileNameLength)
    (hallows : ∀ length, config.AllowsPath length → larger.AllowsPath length) :
    config.StaysAllowed larger where
  resolve := by
    intro dir name path h
    obtain ⟨hdir, hnonempty, rfl⟩ := Path.resolve_eq_ok h
    obtain ⟨hlength, hfits⟩ := Path.fits_of_resolve h
    exact Path.resolve_of_fits hdir hnonempty (hlength.trans hname) (hallows _ hfits)
  makePath := fun path recursive h => Directory.makePath_congr (hallows _ h) h recursive

/-- **The longest path is the sum of both sizes, less two, exactly if the sum fits into its word;**
otherwise everything that needs it stops. Nothing is refused as too long that is not longer than
that. Under a configuration that is accepted, the sizes can be enlarged: it is still accepted, and
whatever was allowed is allowed as long as their sum fits, and stops from there on. -/
theorem longestPath_exact_iff (hvalid : config.validate = .ok ()) :
    (config.maxAbsPathLength = .ok (config.sizeSum - 2) ↔
        config.sizeSum ≤ Word.maxUnsigned64) ∧
      (config.Stops ↔ Word.maxUnsigned64 < config.sizeSum) ∧
      config.RefusesOnlyLonger (config.sizeSum - 2) ∧
      (config.sizeSum ≤ Word.maxUnsigned64 →
        ∀ bound, config.RefusesOnlyLonger bound ↔ bound ≤ config.sizeSum - 2) ∧
      ∀ pathSize nameSize, config.maxPathSize ≤ pathSize → config.maxFileNameSize ≤ nameSize →
        let larger : Config := { config with maxPathSize := pathSize, maxFileNameSize := nameSize }
        larger.validate = .ok () ∧
          (larger.sizeSum ≤ Word.maxUnsigned64 → config.StaysAllowed larger) ∧
          (Word.maxUnsigned64 < larger.sizeSum → larger.Stops) := by
  refine ⟨?_, stops_iff, refusesOnlyLonger_sizeSum, fun hsum _ => refusesOnlyLonger_iff hsum, ?_⟩
  · exact ⟨fun h => (maxAbsPathLength_eq_ok_iff.1 h).1, maxAbsPathLength_eq⟩
  · intro pathSize nameSize hpath hname larger
    refine ⟨validate_of_le hvalid hpath hname, fun hsum => ?_, stops_iff.2⟩
    have hpathSize : config.maxPathSize.toNat ≤ pathSize.toNat := UInt64.le_iff_toNat_le.1 hpath
    have hnameSize : config.maxFileNameSize.toNat ≤ nameSize.toNat := UInt64.le_iff_toNat_le.1 hname
    have hle : config.sizeSum ≤ larger.sizeSum := Nat.add_le_add hpathSize hnameSize
    refine staysAllowed_of_le (Nat.sub_le_sub_right hnameSize 1) fun length hlength => ?_
    have hshorter := (allowsPath_iff.1 hlength).2
    exact allowsPath_iff.2 ⟨hsum, hshorter.trans (Nat.sub_le_sub_right hle 2)⟩

/-- The default sizes allow paths of 190 bytes, and twice the size of a directory allows what they
do; a size of a directory that leaves no room for the sum stops everything. -/
theorem longestPath_exact_iff_default :
    let config : Config := {}
    let larger : Config := { maxPathSize := 256 }
    let largest : Config := { maxPathSize := 18446744073709551615 }
    config.validate = .ok () ∧ config.maxAbsPathLength = .ok 190 ∧ config.RefusesOnlyLonger 190 ∧
      larger.validate = .ok () ∧ Path.resolve "/lfs" "a.txt" larger = .ok "/lfs/a.txt" ∧
      largest.validate = .ok () ∧ Path.resolve "/lfs" "a.txt" largest = .error .overflow := by
  intro config larger largest
  have hvalid : config.validate = .ok () := by decide
  obtain ⟨hexact, -, hrefuses, -, henlarge⟩ := longestPath_exact_iff hvalid
  obtain ⟨hlarger, hallows, -⟩ := henlarge 256 64 (by decide) (by decide)
  obtain ⟨hlargest, -, hstops⟩ := henlarge 18446744073709551615 64 (by decide) (by decide)
  exact ⟨hvalid, hexact.2 (by decide), hrefuses, hlarger,
    (hallows (by decide)).resolve "/lfs" "a.txt" "/lfs/a.txt" (by decide), hlargest,
    (hstops (by decide)).resolve "/lfs" "a.txt" (by decide)⟩

/-- **Not every configuration that is accepted has a longest path,** and not every path that
resolves still resolves when a size is enlarged: the operation stops where the sum does not fit. -/
theorem not_longestPath_exact :
    (¬∀ config : Config, config.validate = .ok () →
      config.maxAbsPathLength = .ok (config.sizeSum - 2)) ∧
    ¬∀ (config : Config) (pathSize nameSize : UInt64) (dir name path : String),
      config.validate = .ok () → config.maxPathSize ≤ pathSize →
      config.maxFileNameSize ≤ nameSize → Path.resolve dir name config = .ok path →
      Path.resolve dir name { config with maxPathSize := pathSize, maxFileNameSize := nameSize } =
        .ok path := by
  refine ⟨fun h => ?_, fun h => ?_⟩
  · exact absurd (h { maxPathSize := 18446744073709551615 } (by decide)) (by decide)
  · let name := String.ofList (List.replicate 60 'n')
    have hallowed : Path.resolve "/lfs" name {} = .ok ("/lfs/" ++ name) := by decide +kernel
    have hstopped : Path.resolve "/lfs" name { maxPathSize := 18446744073709551615 } =
        .error .overflow := by decide +kernel
    have hresolve := h {} 18446744073709551615 64 "/lfs" name _ (by decide) (by decide) (by decide)
      hallowed
    rw [hstopped] at hresolve
    cases hresolve

end Config
end FlashVolume

import FlashVolume.Proofs.Memory.Enclosure
import FlashVolume.Proofs.Memory.Tree
import FlashVolume.Proofs.Path.Canonical
/-!
# What directories that are made are called

Sections 3 and 4.6 of the specification: what is left unresolved in a path that `mkdir_recursive`
makes.

The clean form of a path has none of `//`, `/./` and `/../` in it. Without the separators at its end
it is walked down stage by stage, and a stage between two separators is a name. Dots are left where
a separator is missing on one side:

| where they stand | are they made into a directory |
| --- | --- |
| `.` or `..` in the middle, or at the end with a separator behind | no, cleaning takes them away |
| at the end, with none behind | yes: `normalize` keeps them as they are written |
| at the beginning, with none in front | in a directory at the empty path only |

A volume whose mount point is not empty has no directory at the empty path, whatever it goes
through: an entry is created in a directory that is there, and the empty path is its own parent
(`pathMap_empty_after`).
-/

namespace FlashVolume

namespace Path

/-- The segment is `.` or `..`. -/
def IsDots (segment : String) : Prop :=
  segment = "." ∨ segment = ".."

instance : DecidablePred IsDots :=
  fun _ => inferInstanceAs (Decidable (_ ∨ _))

/-- Dots hold no separator. -/
theorem IsDots.notMem {segment : String} (h : IsDots segment) : '/' ∉ segment.toList := by
  rcases h with rfl | rfl <;> decide

/-! ### Last segments -/

/-- **Cleaning leaves the last segment of a path as it is.** -/
theorem fileName_of_normalize {path clean : String} {bound : Nat}
    (h : normalize path bound = .ok clean) : fileName clean = fileName path := by
  obtain ⟨segments, last, hsep, hlast, hpath⟩ := exists_segments path.toList
  have hchars := normalizeChars_of_normalize h
  rw [normalizeChars_eq_cleanSegments, hpath, cleanSegments_segments hsep hlast] at hchars
  obtain ⟨stack, -, hclean⟩ := Option.map_eq_some_iff.1 hchars
  -- In front of the last segment both texts end in a separator, or there is nothing.
  have hfront : EndsClosed (segments.flatMap (· ++ ['/'])).reverse := by
    rcases List.eq_nil_or_concat segments with rfl | ⟨segments, segment, rfl⟩
    · simp [EndsClosed]
    · simp [EndsClosed]
  have hstack : EndsClosed (trail (rootMark (segments.head? = some [])) stack).reverse.reverse := by
    rw [List.reverse_reverse]
    exact endsClosed_trail _ _
  rw [← String.toList_inj, fileName_append hfront hlast hpath,
    fileName_append hstack hlast hclean.symm]

/-- Normalizing keeps the last name. -/
theorem fileName_of_normalizeWithin {path clean : String} {config : Config}
    (h : normalizeWithin path config = .ok clean) : fileName clean = fileName path := by
  obtain ⟨bound, -, hbounded⟩ := normalizeWithin_eq_ok_iff.1 h
  exact fileName_of_normalize hbounded

/-- A stage of a path without the separators at its end has a separator behind it in the path, or is
the path and does not end in one. -/
theorem IsStage.of_trimSeparators {stage path : String} (h : IsStage stage (trimSeparators path)) :
    (stage ++ "/").toList <+: path.toList ∨ stage = path ∧ path.toList.getLast? ≠ some '/' := by
  obtain ⟨n, hpath⟩ := exists_trimSeparators path
  rcases h.2 with rfl | hbelow
  · cases n with
    | zero =>
      have hsame : trimSeparators path = path := String.toList_inj.1 (by simpa using hpath.symm)
      have hlast := getLast?_trimSeparators path
      rw [hsame] at hlast
      exact .inr ⟨hsame, hlast⟩
    | succ n => exact .inl ⟨List.replicate n '/', by simp [hpath, List.replicate_succ]⟩
  · exact .inl (hbelow.trans ⟨_, hpath.symm⟩)

/-- **Where a separator stands behind a part of a clean path, no dots stand in front of it,** unless
they are all that there is. -/
theorem IsClean.fileName {stage : String} {clean : List Char} (hclean : IsClean clean)
    (hne : stage ≠ "") (hbelow : (stage ++ "/").toList <+: clean) :
    fileName stage ≠ "" ∧ (IsDots (fileName stage) → IsDots stage) := by
  rcases notMem_or_exists_append stage.toList with hsep | ⟨dir, name, hname, hstage⟩
  · rw [fileName_of_notMem hsep]
    exact ⟨hne, id⟩
  · have hname := fileName_of_toList hname hstage
    have hinfix : ('/' :: name ++ ['/']) <:+: clean := by
      refine List.IsInfix.trans ⟨dir, [], ?_⟩ hbelow.isInfix
      simp [hstage]
    refine ⟨?_, ?_⟩
    · intro hempty
      rw [hempty] at hname
      exact hclean.separators (by simpa [← hname] using hinfix)
    · rintro (hdot | hdots)
      · rw [hdot] at hname
        exact absurd (by simpa [← hname] using hinfix) hclean.dot
      · rw [hdots] at hname
        exact absurd (by simpa [← hname] using hinfix) hclean.dots

/-- What a directory is called that is made for a path. -/
structure IsMadeFor (path : String) (config : Config) (made : String) : Prop where
  named : Path.fileName made ≠ ""
  dots_iff : IsDots (Path.fileName made) ↔
    normalizeWithin path config = .ok made ∧ IsDots (Path.fileName path) ∨ IsDots made

/-- **A stage is called `.` or `..` if it is a path that was given with that at its end,** or if
there is nothing else to it. -/
theorem isMadeFor {path clean stage : String} {config : Config}
    (hclean : normalizeWithin path config = .ok clean)
    (hstage : IsStage stage (trimSeparators clean)) : IsMadeFor path config stage := by
  have hdots : ∀ text, IsDots text → Path.fileName text = text :=
    fun text h => fileName_of_notMem h.notMem
  have hback : normalizeWithin path config = .ok stage ∧ IsDots (Path.fileName path) ∨
      IsDots stage → IsDots (Path.fileName stage) := by
    rintro (⟨hsame, hends⟩ | hall)
    · rwa [fileName_of_normalizeWithin hsame]
    · rwa [hdots stage hall]
  rcases hstage.of_trimSeparators with hbelow | ⟨rfl, hlast⟩
  · obtain ⟨bound, -, hbounded⟩ := normalizeWithin_eq_ok_iff.1 hclean
    obtain ⟨-, -, hpath⟩ := isClean_of_normalize hbounded
    obtain ⟨hnamed, hall⟩ := hpath.fileName hstage.1 hbelow
    exact ⟨hnamed, fun h => .inr (hall h), hback⟩
  · have hname := fileName_of_normalizeWithin hclean
    exact ⟨fileName_ne_empty hstage.1 hlast, fun h => .inl ⟨hclean, hname ▸ h⟩, hback⟩

/-- Stages of a clean path are clean. -/
theorem IsClean.of_isStage {stage clean : String} (hclean : IsClean clean.toList)
    (hstage : IsStage stage (trimSeparators clean)) : IsClean stage.toList := by
  rcases hstage.of_trimSeparators with hbelow | ⟨rfl, -⟩
  · rw [String.toList_append] at hbelow
    exact hclean.of_infix ((List.prefix_append _ _).trans hbelow).isInfix
  · exact hclean

/-- The last segment of a name in a directory is that of the name. -/
theorem fileName_joined (dir name : String) : fileName (dir ++ "/" ++ name) = fileName name := by
  rw [← String.toList_inj]
  rcases notMem_or_exists_append name.toList with hsep | ⟨above, last, hlast, hname⟩
  · have hpath : (dir ++ "/" ++ name).toList = dir.toList ++ '/' :: name.toList := by simp
    rw [fileName_of_notMem hsep, fileName_of_toList hsep hpath]
  · have hpath : (dir ++ "/" ++ name).toList = (dir.toList ++ '/' :: above) ++ '/' :: last := by
      simp [hname]
    rw [fileName_of_toList hlast hname, fileName_of_toList hlast hpath]

/-- Dots alone are in the directory at the empty path. -/
theorem IsDots.parent {path : String} (h : IsDots path) : parent path = "" := by
  rw [Path.parent, parentChars_of_notMem h.notMem]

end Path

/-! ### Directories that are new -/

namespace MemoryVolume

/-- There is a directory after and not before. -/
def Gains (v v' : MemoryVolume) (path : String) : Prop :=
  v.pathMap path ≠ some .directory ∧ v'.pathMap path = some .directory

instance (v v' : MemoryVolume) (path : String) : Decidable (v.Gains v' path) :=
  inferInstanceAs (Decidable (_ ∧ _))

/-- The directories after that are not there before are at some paths; and what is in the directory
at the empty path needs that one before. -/
def GainsOnly (Q : String → Prop) (v v' : MemoryVolume) : Prop :=
  ∀ path, v'.pathMap path = some .directory → v.pathMap path = some .directory ∨
    Q path ∧ (Path.parent path = "" → v.pathMap "" = some .directory)

variable {Q : String → Prop} {α : Type}

namespace GainsOnly

/-- A volume gains nothing on itself. -/
theorem refl (v : MemoryVolume) : GainsOnly Q v v :=
  fun _ => .inl

/-- There is no directory at the empty path if there is none before, as it would be in itself. -/
theorem empty {v v' : MemoryVolume} (h : GainsOnly Q v v')
    (hempty : v'.pathMap "" = some .directory) : v.pathMap "" = some .directory :=
  (h "" hempty).elim id fun hnew => hnew.2 rfl

/-- What is gained in two goes is gained. -/
theorem trans {v₁ v₂ v₃ : MemoryVolume} (h : GainsOnly Q v₁ v₂) (h' : GainsOnly Q v₂ v₃) :
    GainsOnly Q v₁ v₃ := by
  intro path hpath
  rcases h' path hpath with hthere | ⟨hq, hparent⟩
  · exact h path hthere
  · exact .inr ⟨hq, fun hroot => h.empty (hparent hroot)⟩

end GainsOnly

/-- A call gains at most the paths it creates. -/
theorem gainsOnly_answer {c : Call α} (hc : ∀ path, c.Creates path → Q path) (v : MemoryVolume) :
    GainsOnly Q v (backend.answer c v).2 := by
  intro path hpath
  rcases directory_of_answer hpath with hthere | ⟨hcreates, hparent⟩
  · exact .inl hthere
  · exact .inr ⟨hc path hcreates, fun hroot => hroot ▸ hparent⟩

/-- **What the calls of a program create is all that is new.** -/
theorem gainsOnly_run {p : Program α} (hp : p.Only fun c => ∀ path, c.Creates path → Q path)
    (v : MemoryVolume) : GainsOnly Q v (p.run backend v).2 :=
  hp.run_rel .refl (fun _ _ _ => .trans) (fun _ v hc => gainsOnly_answer hc v) v

/-- A step may make directories anywhere, but none below an empty path that is missing. -/
theorem gainsOnly_apply (step : Step) (v : MemoryVolume) :
    GainsOnly (fun _ => True) v (step.apply v) := by
  have hrun : ∀ {α : Type} (p : Program α), GainsOnly (fun _ => True) v (p.run backend v).2 :=
    fun p => gainsOnly_run ((Program.only_true p).mono fun _ _ _ _ => trivial) v
  cases step with
  | call c => exact gainsOnly_answer (fun _ _ => trivial) v
  | request machine config request => exact hrun _
  | gate state mountPoint => exact hrun _
  | faults faults => exact .refl v

/-- **There is no directory at the empty path,** whatever a volume with a mount point goes
through. -/
theorem pathMap_empty_after {top : String} (htop : top ≠ "") (steps : List Step) :
    ((newMounted top).after steps).pathMap "" ≠ some .directory := by
  have hrun : ∀ v : MemoryVolume, GainsOnly (fun _ => True) v (v.after steps) := by
    induction steps with
    | nil => exact .refl
    | cons step steps ih => exact fun v => (gainsOnly_apply step v).trans (ih (step.apply v))
  intro hempty
  have hstart : (new top).pathMap "" = some .directory := (hrun (newMounted top)).empty hempty
  have hroot : "" ≠ "/" := by decide
  rw [pathMap_new, PathMap.update, if_neg htop.symm, PathMap.update, if_neg hroot] at hstart
  cases hstart

end MemoryVolume

/-! ### Making directories -/

/-- The call names a clean path, if it names one. -/
def Call.NamesClean {α : Type} (c : Call α) : Prop :=
  ∀ path, c.path? = some path → Path.IsClean path.toList

namespace Directory

open Operation

variable {config : Config}

/-- **Nothing that is left to be cleaned comes to the volume.** -/
theorem makePath_namesClean (path : String) (recursive : Bool) (config : Config) :
    Only Call.NamesClean (makePath path recursive config) := by
  refine (makePath_makes path recursive config).mono ?_
  rintro γ c ⟨clean, hclean, hc⟩ named hnamed
  obtain ⟨bound, -, hbounded⟩ := Path.normalizeWithin_eq_ok_iff.1 hclean
  obtain ⟨-, -, hpath⟩ := Path.isClean_of_normalize hbounded
  cases c with
  | stat p =>
    cases hnamed
    rcases hc with rfl | hstage
    · exact hpath
    · exact hpath.of_isStage hstage
  | mkdir p =>
    cases hnamed
    exact hpath.of_isStage hc
  | _ => exact hc.elim

/-- What making directories for a path creates is made for it. -/
theorem makePath_creates (path : String) (recursive : Bool) (config : Config) :
    Only (fun c => ∀ made, c.Creates made → Path.IsMadeFor path config made)
      (makePath path recursive config) := by
  refine (makePath_makes path recursive config).mono ?_
  rintro γ c ⟨clean, hclean, hc⟩ made hcreates
  cases c with
  | mkdir p =>
    obtain rfl : p = made := hcreates
    exact Path.isMadeFor hclean hc
  | stat p => exact hcreates.elim
  | _ => exact hc.elim

end Directory

namespace MemoryVolume

open Operation

/-- What is known of a directory that has been made for a path. -/
theorem isMadeFor_of_gains {path made : String} {v v' : MemoryVolume}
    (h : GainsOnly (Path.IsMadeFor path config) v v') (hgains : v.Gains v' made) :
    Path.IsMadeFor path config made ∧ (Path.IsDots made → v.pathMap "" = some .directory) := by
  obtain ⟨hmade, hparent⟩ := (h made hgains.2).resolve_left hgains.1
  exact ⟨hmade, fun hdots => hparent hdots.parent⟩

/-- **Dots are made into a directory only where cleaning leaves them.**  On every volume, whatever
its faults and the configuration are, a directory that is there after making one for a path, and not
before, has a name. The name is `.` or `..` if and only if

* the directory is the clean form of the path, and the path itself ends in `.` or `..`, or
* the directory is `.` or `..`; then there is a directory at the empty path, which no volume has
  whose mount point is not empty.

For a name in a directory the path is the two with a separator in between, and it ends as the name
does. The calls that are made name clean paths. -/
theorem gains_named (config : Config) :
    (∀ (v : MemoryVolume) path recursive made,
      v.Gains (runOn backend (Directory.makePath path recursive config) v).2 made →
        Path.IsMadeFor path config made ∧
          (Path.IsDots made → v.pathMap "" = some .directory)) ∧
    (∀ (v : MemoryVolume) dir name made,
      v.Gains (runOn backend (Directory.make dir name config) v).2 made →
        Path.IsMadeFor (dir ++ "/" ++ name) config made ∧
          Path.fileName (dir ++ "/" ++ name) = Path.fileName name ∧
          (Path.IsDots made → v.pathMap "" = some .directory)) ∧
    (∀ top steps, top ≠ "" → ((newMounted top).after steps).pathMap "" ≠ some .directory) ∧
    (∀ path recursive, Only Call.NamesClean (Directory.makePath path recursive config)) ∧
    ∀ dir name, Only Call.NamesClean (Directory.make dir name config) := by
  refine ⟨?_, ?_, fun top steps htop => pathMap_empty_after htop steps,
    fun path recursive => Directory.makePath_namesClean path recursive config, ?_⟩
  · intro v path recursive made hgains
    exact isMadeFor_of_gains (gainsOnly_run (Directory.makePath_creates path recursive config) v)
      hgains
  · intro v dir name made hgains
    have hcreates : Only (fun c => ∀ made, c.Creates made →
        Path.IsMadeFor (dir ++ "/" ++ name) config made)
        (Directory.make dir name config) := by
      refine only_inDirectory fun path hresolve => ?_
      rw [← Path.eq_of_resolve hresolve]
      exact Directory.makePath_creates path false config
    obtain ⟨hmade, hempty⟩ := isMadeFor_of_gains (gainsOnly_run hcreates v) hgains
    exact ⟨hmade, Path.fileName_joined dir name, hempty⟩
  · intro dir name
    exact only_inDirectory fun path _ => Directory.makePath_namesClean path false config

/-- Of the directories that are made for a path, the last one keeps the dots at its end. -/
theorem gains_named_lastDots :
    let path := "/lfs//a/./b/.."
    let v := newMounted "/lfs"
    let v' := (runOn backend (Directory.makePath path true {}) v).2
    v.Gains v' "/lfs/a/b" ∧ Path.IsMadeFor path {} "/lfs/a/b" ∧
      ¬Path.IsDots (Path.fileName "/lfs/a/b") ∧
      v.Gains v' "/lfs/a/b/.." ∧ Path.IsMadeFor path {} "/lfs/a/b/.." ∧
      Path.IsDots (Path.fileName "/lfs/a/b/..") ∧ v.pathMap "" ≠ some .directory := by
  intro path v v'
  have hinner : v.Gains v' "/lfs/a/b" := by decide +kernel
  have hlast : v.Gains v' "/lfs/a/b/.." := by decide +kernel
  obtain ⟨hmakes, -, hempty, -⟩ := gains_named {}
  exact ⟨hinner, (hmakes v path true _ hinner).1, by decide, hlast,
    (hmakes v path true _ hlast).1, by decide, hempty "/lfs" [] (by decide)⟩

/-- **There are directories that are called `.` and `..`.**  One is made for a path that ends so,
one for such a name, and one on a volume whose mount point is empty. -/
theorem gains_dots :
    let v := newMounted "/lfs"
    let w := newMounted ""
    Config.validate {} = .ok () ∧
      v.Gains (runOn backend (Directory.makePath "/lfs/a/." true {}) v).2 "/lfs/a/." ∧
      v.Gains (runOn backend (Directory.make "/lfs" ".." {}) v).2 "/lfs/.." ∧
      w.Gains (runOn backend (Directory.makePath "./a" true {}) w).2 "." ∧
      Path.IsDots (Path.fileName "/lfs/a/.") ∧ Path.IsDots (Path.fileName "/lfs/..") ∧
      Path.IsDots (Path.fileName ".") := by
  intro v w
  exact ⟨by decide, by decide +kernel, by decide +kernel, by decide +kernel, by decide, by decide,
    by decide⟩

end MemoryVolume
end FlashVolume

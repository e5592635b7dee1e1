import FlashVolume.Proofs.Memory.Changes
import FlashVolume.Proofs.Memory.Steps
import FlashVolume.Proofs.Path.Names
/-!
# Inside the mount point

Section 3 of the specification: a path starts with the mount point.

The mount point is the first segment of every path of a volume, and cleaning a path leaves it there.
On the stack of segments it lies at the bottom, and `..` does not take the last segment away
(`exists_foldlM_stackSegment`). What a mount point is called matters before it is on the stack:

| mount point | a path below it |
| --- | --- |
| `/..` | is refused: it climbs out of nothing |
| `/.` | **loses its first segment** |
| any other | keeps its first segment |

So directories that are made for a path below the mount point are at or below it, unless the mount
point is `/.` (`encloses_of_validate`). The check of the configuration lets `/.` pass
(`not_encloses_dot`).
-/

namespace FlashVolume

namespace Path

/-! ### At or below a directory -/

/-- What stands in front of text that is closed is closed too. -/
theorem EndsClosed.of_append {front rest : List Char} (h : EndsClosed (front ++ rest)) :
    EndsClosed front := by
  cases front with
  | nil => simp [EndsClosed]
  | cons c front => exact h

/-- A path is at or below a directory if it starts with it, and the directory ends there or before a
separator. -/
theorem isWithin_iff {top path : String} :
    IsWithin top path ↔ ∃ rest, path.toList = top.toList ++ rest ∧ EndsClosed rest := by
  constructor
  · rintro (rfl | ⟨rest, hrest⟩)
    · exact ⟨[], by simp, by simp [EndsClosed]⟩
    · exact ⟨'/' :: rest, by simpa using hrest.symm, by simp [EndsClosed]⟩
  · rintro ⟨rest, hpath, hclosed⟩
    cases rest with
    | nil => exact .inl (String.toList_inj.1 (by simpa using hpath))
    | cons c rest =>
      obtain rfl : c = '/' := hclosed c rfl
      exact .inr ⟨rest, by simpa using hpath.symm⟩

/-- A path is at or below its stages. -/
theorem IsStage.isWithin {stage path : String} (h : IsStage stage path) : IsWithin stage path :=
  h.2.imp_left Eq.symm

/-- What is left of a path without the separators at its end is a stage of it. -/
theorem isStage_trimSeparators {path : String} (h : trimSeparators path ≠ "") :
    IsStage (trimSeparators path) path := by
  obtain ⟨n, hpath⟩ := exists_trimSeparators path
  refine ⟨h, ?_⟩
  cases n with
  | zero => exact .inl (String.toList_inj.1 (by simpa using hpath.symm))
  | succ n => exact .inr ⟨List.replicate n '/', by simp [hpath, List.replicate_succ]⟩

/-- **The stages of a path below an entry of the root are at or below that entry.** -/
theorem IsWithin.of_isStage {top stage path : String} {name : List Char} (hsep : '/' ∉ name)
    (htop : top.toList = '/' :: name) (hpath : IsWithin top path) (hstage : IsStage stage path) :
    IsWithin top stage := by
  obtain ⟨rest, hrest, hclosed⟩ := isWithin_iff.1 hpath
  obtain ⟨after, hafter, hclosed'⟩ := isWithin_iff.1 hstage.isWithin
  rw [isWithin_iff]
  rcases List.append_eq_append_iff.1 (hrest.symm.trans hafter) with
    ⟨mid, hmid, hsplit⟩ | ⟨mid, hmid, hsplit⟩
  · exact ⟨mid, hmid, (hsplit ▸ hclosed).of_append⟩
  · -- A stage that ends before the directory does would end before a separator of its name.
    cases mid with
    | nil => exact ⟨[], by simpa using hmid.symm, by simp [EndsClosed]⟩
    | cons c mid =>
      obtain rfl : c = '/' := hclosed' c (by simp [hsplit])
      cases hchars : stage.toList with
      | nil => exact absurd (String.toList_eq_nil_iff.1 hchars) hstage.1
      | cons d chars =>
        rw [htop, hchars, List.cons_append] at hmid
        have hsplit : name = chars ++ '/' :: mid := (List.cons.inj hmid).2
        exact absurd (by simp [hsplit]) hsep

/-! ### The bottom of the stack -/

/-- A segment does not take the bottom of the stack away. -/
theorem exists_stackSegment {bottom segment : List Char} {above stack : List (List Char)}
    (h : stackSegment (above ++ [bottom]) segment = some stack) :
    ∃ above', stack = above' ++ [bottom] := by
  unfold stackSegment at h
  split_ifs at h with hdrop hdots htwo
  · cases h
    exact ⟨above, rfl⟩
  · cases h
    cases above with
    | nil => simp at htwo
    | cons segment above => exact ⟨above, rfl⟩
  · cases h
    exact ⟨segment :: above, rfl⟩

/-- **What lies at the bottom of the stack stays there.** -/
theorem exists_foldlM_stackSegment {bottom : List Char} {segments above stack : List (List Char)}
    (h : segments.foldlM stackSegment (above ++ [bottom]) = some stack) :
    ∃ above', stack = above' ++ [bottom] := by
  induction segments generalizing above with
  | nil =>
    cases h
    exact ⟨above, rfl⟩
  | cons segment segments ih =>
    rw [List.foldlM_cons] at h
    obtain ⟨mid, hmid, hrest⟩ := Option.bind_eq_some_iff.1 h
    obtain ⟨above', rfl⟩ := exists_stackSegment hmid
    exact ih hrest

/-! ### Clean paths -/

/-- A segment on a stack below a separator has characters, none of them a separator, and is not
`.`. -/
theorem Stacked.of_mem {root : List Char} {stack : List (List Char)} (h : Stacked root stack)
    (hroot : root ≠ []) {segment : List Char} (hmem : segment ∈ stack) :
    segment ≠ [] ∧ '/' ∉ segment ∧ segment ≠ ['.'] := by
  induction h with
  | nil => cases hmem
  | @cons first stack _ hne hsep hdot ih =>
    rcases List.mem_cons.1 hmem with rfl | hmem
    · refine ⟨hne, hsep, fun hsegment => ?_⟩
      have htrail : trail root stack = [] := hdot hsegment
      rw [trail, List.append_eq_nil_iff] at htrail
      exact hroot htrail.2
    · exact ih hmem

section Cleaning

variable {top path clean : String} {name : List Char} {bound : Nat} (hsep : '/' ∉ name)
  (htop : top.toList = '/' :: name) (hclean : normalize path bound = .ok clean)
include hsep htop hclean

/-- The clean form of the entry of the root is that entry. -/
theorem clean_eq_self (hpath : path = top) : clean = top := by
  have hchars := normalizeChars_of_normalize hclean
  have hsegments : path.toList = [([] : List Char)].flatMap (· ++ ['/']) ++ name := by
    rw [hpath, htop]
    rfl
  rw [normalizeChars_eq_cleanSegments, hsegments,
    cleanSegments_segments (by simp) hsep] at hchars
  rw [← String.toList_inj, ← Option.some.inj hchars, htop]
  rfl

/-- The clean form of a path below the entry of the root is the text of a stack, which starts with
what the name of the entry puts there. -/
theorem exists_stack_of_below (hpath : (top ++ "/").toList <+: path.toList) :
    ∃ (segments : List (List Char)) (last : List Char) (start stack : List (List Char)),
      '/' ∉ last ∧ (∀ segment ∈ segments, '/' ∉ segment) ∧
      stackSegment [] name = some start ∧ segments.foldlM stackSegment start = some stack ∧
      clean.toList = '/' :: stack.reverse.flatMap (· ++ ['/']) ++ last := by
  obtain ⟨rest, hrest⟩ := hpath
  obtain ⟨segments, last, hsegments, hlast, rfl⟩ := exists_segments rest
  have hchars := normalizeChars_of_normalize hclean
  have hsplit : path.toList = ([] :: name :: segments).flatMap (· ++ ['/']) ++ last := by
    simp [← hrest, htop]
  have hall : ∀ segment ∈ [] :: name :: segments, '/' ∉ segment := by
    simpa using ⟨hsep, hsegments⟩
  rw [normalizeChars_eq_cleanSegments, hsplit, cleanSegments_segments hall hlast] at hchars
  obtain ⟨stack, hstack, htext⟩ := Option.map_eq_some_iff.1 hchars
  have hroot : rootMark (([] :: name :: segments : List (List Char)).head? = some [])
      = rootMark true := rfl
  rw [hroot, trail_reverse] at htext
  have hfold : (name :: segments).foldlM stackSegment [] = some stack := hstack
  rw [List.foldlM_cons] at hfold
  obtain ⟨start, hstart, hfold⟩ := Option.bind_eq_some_iff.1 hfold
  exact ⟨segments, last, start, stack, hlast, hsegments, hstart, hfold, htext.symm⟩

/-- **Cleaning a path leaves its first segment in place,** if that is not `.`. -/
theorem IsWithin.normalize (hne : name ≠ []) (hdot : name ≠ ['.']) (hpath : IsWithin top path) :
    IsWithin top clean := by
  rcases hpath with hself | hbelow
  · exact .inl (clean_eq_self hsep htop hclean hself)
  · obtain ⟨segments, last, start, stack, -, -, hstart, hfold, htext⟩ :=
      exists_stack_of_below hsep htop hclean hbelow
    have hdots : name ≠ ['.', '.'] := by
      rintro rfl
      cases hstart
    obtain rfl : start = [name] := by
      rw [stackSegment, if_neg (by simp [hne, hdot]), if_neg hdots] at hstart
      exact (Option.some.inj hstart).symm
    have hbottom : segments.foldlM stackSegment ([] ++ [name]) = some stack := hfold
    obtain ⟨above, rfl⟩ := exists_foldlM_stackSegment hbottom
    exact .inr ⟨above.reverse.flatMap (· ++ ['/']) ++ last, by simp [htext, htop]⟩

/-- A clean path has no first segment `.` with a separator behind it. -/
theorem not_below_dot (hname : name = ['.']) (hpath : (top ++ "/").toList <+: path.toList) :
    ¬(top ++ "/").toList <+: clean.toList := by
  subst hname
  obtain ⟨segments, last, start, stack, hlast, hsegments, hstart, hfold, htext⟩ :=
    exists_stack_of_below hsep htop hclean hpath
  obtain rfl : start = [] := (Option.some.inj hstart).symm
  have hstacked : Stacked ['/'] stack :=
    Stacked.nil.foldlM_stackSegment (by simp) hsegments hfold
  rintro ⟨rest, hrest⟩
  rw [htext, String.toList_append, htop] at hrest
  rcases List.eq_nil_or_concat stack with rfl | ⟨above, bottom, rfl⟩
  · have hsplit : '.' :: '/' :: rest = last := by simpa using hrest
    exact absurd (by simp [← hsplit]) hlast
  · have hmem : bottom ∈ above.concat bottom := by simp
    obtain ⟨hempty, hbottom, hdot⟩ := hstacked.of_mem (by simp) hmem
    have hsplit : ∃ after, ['.'] ++ '/' :: rest = bottom ++ '/' :: after :=
      ⟨_, by simpa using hrest⟩
    obtain ⟨after, hsplit⟩ := hsplit
    have hpieces := congrArg (List.splitOn '/') hsplit
    rw [List.splitOn_append_cons_self_of_not_mem hsep,
      List.splitOn_append_cons_self_of_not_mem hbottom] at hpieces
    exact hdot (List.cons.inj hpieces).1.symm

end Cleaning

end Path

/-! ### Directories that are made -/

/-- The call looks at an entry, or makes a directory at or below `top`. -/
def Call.MakesWithin (top : String) {α : Type} : Call α → Prop
  | .stat _ => True
  | .mkdir path => Path.IsWithin top path
  | _ => False

/-- The call looks at the clean form of a path or at one of its stages, or makes a stage. -/
def Call.MakesFor (clean : String) {α : Type} : Call α → Prop
  | .stat path => path = clean ∨ Path.IsStage path (Path.trimSeparators clean)
  | .mkdir path => Path.IsStage path (Path.trimSeparators clean)
  | _ => False

/-- Nothing has changed outside a directory. -/
def MemoryVolume.SameOutside (top : String) (v v' : MemoryVolume) : Prop :=
  ∀ path, ¬Path.IsWithin top path → v'.pathMap path = v.pathMap path

/-- Making a directory changes nothing at the other paths. -/
theorem PathMap.Change.of_mkdir {m m' : PathMap} {path p : String}
    (h : m.Change (Call.mkdir path) m') (hp : p ≠ path) : m' p = m p := by
  cases h with
  | same => rfl
  | create created node hcall =>
    cases hcall
    exact if_neg hp
  | alter _ _ _ hcall => exact hcall.elim
  | remove _ _ hcall => exact hcall.elim

namespace MemoryVolume

variable {α : Type} {top : String}

/-- A call that makes within a directory changes nothing outside. -/
theorem sameOutside_answer {c : Call α} (hc : c.MakesWithin top) (v : MemoryVolume) :
    SameOutside top v (backend.answer c v).2 := by
  cases c with
  | stat path =>
    simp only [backend, answer, MemoryVolume.stat, whenMounted]
    repeat' split
    all_goals exact fun _ _ => rfl
  | mkdir path =>
    intro p hp
    refine (mkdir_change path).of_mkdir ?_
    rintro rfl
    exact hp hc
  | _ => exact hc.elim

/-- **What every call leaves alone, the operation leaves alone.** -/
theorem sameOutside_runOn {p : Operation α} (hp : Operation.Only (Call.MakesWithin top) p)
    (v : MemoryVolume) : SameOutside top v (Operation.runOn backend p v).2 :=
  Program.Only.run_rel (fun _ _ _ => rfl)
    (fun _ _ _ h h' path hpath => (h' path hpath).trans (h path hpath))
    (fun _ v hc => sameOutside_answer hc v) hp v

end MemoryVolume

namespace Directory

open Operation

variable {top path : String} {name : List Char} {config : Config}

/-- Making a stage makes within the path it is a stage of. -/
theorem makeStage_makes {clean : String} (h : Path.IsStage path (Path.trimSeparators clean)) :
    Only (Call.MakesFor clean) (makeStage path) := by
  refine Only.bind (only_attempt (.inr h)) fun answer => ?_
  cases answer with
  | error e => exact only_request h
  | ok entry => exact Only.ite (only_throw _) (only_pure _)

/-- So does making all of them. -/
theorem forM_makeStage_makes {clean : String} {stages : List String}
    (h : ∀ stage ∈ stages, Path.IsStage stage (Path.trimSeparators clean)) :
    Only (Call.MakesFor clean) (stages.forM makeStage) := by
  induction stages with
  | nil => exact only_pure _
  | cons stage stages ih =>
    obtain ⟨hstage, hstages⟩ := List.forall_mem_cons.1 h
    exact (makeStage_makes hstage).bind fun _ => ih hstages

/-- **Making directories for a path looks at its clean form, and makes stages of that.** -/
theorem makePath_makes (path : String) (recursive : Bool) (config : Config) :
    Only (fun c => ∃ clean, Path.normalizeWithin path config = .ok clean ∧
      c.MakesFor clean) (makePath path recursive config) := by
  refine only_ofExcept_bind fun clean hclean => ?_
  refine Only.mono ?_ fun c hc => ⟨clean, hclean, hc⟩
  refine Only.bind (only_attempt (.inl rfl)) fun answer => ?_
  cases answer with
  | ok entry => exact Only.ite (only_throw _) (only_pure _)
  | error e =>
    by_cases hempty : (Path.trimSeparators clean).isEmpty = true
    · rw [if_pos hempty]
      exact only_throw _
    · have htarget : Path.trimSeparators clean ≠ "" := by simpa using hempty
      have hwalk : Only (Call.MakesFor clean) ((if recursive then
          Path.stages (Path.trimSeparators clean) else [Path.trimSeparators clean]).forM
            makeStage) := by
        refine forM_makeStage_makes ?_
        cases recursive with
        | false => simpa using Path.IsStage.self htarget
        | true => exact fun stage hstage => (Path.mem_stages_iff htarget).1 hstage
      rw [if_neg hempty]
      exact hwalk

/-- **Directories for a path below an entry of the root are made at or below that entry,** if its
name is not `.`. -/
theorem makePath_within (hne : name ≠ []) (hsep : '/' ∉ name) (hdot : name ≠ ['.'])
    (htop : top.toList = '/' :: name) (hpath : Path.IsWithin top path) (recursive : Bool) :
    Only (Call.MakesWithin top) (makePath path recursive config) := by
  refine (makePath_makes path recursive config).mono ?_
  rintro γ c ⟨clean, hclean, hc⟩
  obtain ⟨bound, -, hclean⟩ := Path.normalizeWithin_eq_ok_iff.1 hclean
  have hwithin : Path.IsWithin top clean :=
    Path.IsWithin.normalize hsep htop hclean hne hdot hpath
  cases c with
  | stat path => trivial
  | mkdir stage =>
    have htrimmed := hwithin.of_isStage hsep htop (Path.isStage_trimSeparators hc.ne_empty)
    exact htrimmed.of_isStage hsep htop hc
  | _ => exact hc.elim

end Directory

/-! ### Configurations that are accepted -/

/-- The mount point `/.` is the one whose name is `.`. -/
theorem Path.eq_dot_iff {top : String} {name : List Char} (htop : top.toList = '/' :: name) :
    top = "/." ↔ name = ['.'] := by
  rw [← String.toList_inj, htop, show "/.".toList = ['/', '.'] from rfl, List.cons_inj_right]

/-- What a configuration says about paths at or below its mount point. -/
structure Config.Encloses (config : Config) : Prop where
  /-- The clean form of such a path is one as well, unless the mount point is `/.`: then it is
  outside, or the mount point itself. -/
  clean : ∀ bound path clean, Path.IsWithin config.mountPoint path →
    Path.normalize path bound = .ok clean →
      (Path.IsWithin config.mountPoint clean ↔ config.mountPoint ≠ "/." ∨ clean = "/.")
  /-- Making directories for such a path changes nothing outside, whatever the volume and its
  faults. -/
  makePath : config.mountPoint ≠ "/." → ∀ (v : MemoryVolume) path recursive,
    Path.IsWithin config.mountPoint path → v.SameOutside config.mountPoint
      (Operation.runOn MemoryVolume.backend (Directory.makePath path recursive config) v).2
  /-- Nor does making a directory in one. -/
  make : config.mountPoint ≠ "/." → ∀ (v : MemoryVolume) dir name,
    Path.IsWithin config.mountPoint (dir ++ "/" ++ name) → v.SameOutside config.mountPoint
      (Operation.runOn MemoryVolume.backend (Directory.make dir name config) v).2

/-- **A mount point other than `/.` encloses the paths below it.** -/
theorem Config.encloses_of_validate {config : Config} (h : config.validate = .ok ()) :
    config.Encloses := by
  obtain ⟨name, hne, hsep, htop⟩ := mountPoint_of_validate h
  have hmake : config.mountPoint ≠ "/." → ∀ path recursive,
      Path.IsWithin config.mountPoint path →
        Operation.Only (Call.MakesWithin config.mountPoint)
          (Directory.makePath path recursive config) := by
    intro hmount path recursive hpath
    have hdot : name ≠ ['.'] := mt (Path.eq_dot_iff htop).2 hmount
    exact Directory.makePath_within hne hsep hdot htop hpath recursive
  refine ⟨fun bound path clean hpath hclean => ?_, fun hmount v path recursive hpath => ?_,
    fun hmount v dir entry hpath => ?_⟩
  · by_cases hdot : name = ['.']
    · have hmount := (Path.eq_dot_iff htop).2 hdot
      rw [← hmount]
      simp only [ne_eq, not_true_eq_false, false_or]
      refine ⟨fun hwithin => ?_, .inl⟩
      rcases hpath with hself | hbelow
      · exact Path.clean_eq_self hsep htop hclean hself
      · exact hwithin.resolve_right (Path.not_below_dot hsep htop hclean hdot hbelow)
    · have hwithin := Path.IsWithin.normalize hsep htop hclean hne hdot hpath
      have hmount := mt (Path.eq_dot_iff htop).1 hdot
      exact iff_of_true hwithin (.inl hmount)
  · exact MemoryVolume.sameOutside_runOn (hmake hmount path recursive hpath) v
  · refine MemoryVolume.sameOutside_runOn (Operation.only_inDirectory fun path hresolve => ?_) v
    rw [Path.eq_of_resolve hresolve]
    exact hmake hmount _ false hpath

/-- Below `/lfs`, a path with doubled separators, `.` and `..` stays there, and so do the
directories that are made for it. -/
theorem Config.encloses_of_validate_lfs :
    let config : Config := { mountPoint := "/lfs" }
    let v := MemoryVolume.newMounted "/lfs"
    let made := (Operation.runOn MemoryVolume.backend
      (Directory.makePath "/lfs//a/./../b/c" true config) v).2
    config.validate = .ok () ∧ Path.normalize "/lfs//a/./../b/c" 64 = .ok "/lfs/b/c" ∧
      Path.IsWithin "/lfs" "/lfs/b/c" ∧ made.pathMap "/b" = none := by
  intro config v made
  have hvalid : config.validate = .ok () := by decide
  have hencloses := encloses_of_validate hvalid
  have hpath : Path.IsWithin config.mountPoint "/lfs//a/./../b/c" := by decide
  have hmount : config.mountPoint ≠ "/." := by decide
  have hclean : Path.normalize "/lfs//a/./../b/c" 64 = .ok "/lfs/b/c" := by decide +kernel
  have hkept : made.pathMap "/b" = v.pathMap "/b" :=
    hencloses.makePath hmount v _ true hpath "/b" (by decide)
  exact ⟨hvalid, hclean, (hencloses.clean _ _ _ hpath hclean).2 (.inl hmount),
    hkept.trans (by decide)⟩

/-- **The mount point `/.` is accepted and does not enclose the paths below it:** the clean form of
`/./a` is `/a`, and that is the directory that is made. -/
theorem Config.not_encloses_dot :
    let config : Config := { mountPoint := "/." }
    let v := MemoryVolume.newMounted "/."
    let made := (Operation.runOn MemoryVolume.backend
      (Directory.makePath "/./a" true config) v).2
    config.validate = .ok () ∧ Path.IsWithin config.mountPoint "/./a" ∧
      Path.normalizeWithin "/./a" config = .ok "/a" ∧
      ¬Path.IsWithin config.mountPoint "/a" ∧
      v.pathMap "/a" = none ∧ made.pathMap "/a" = some .directory := by
  intro config v made
  exact ⟨by decide, by decide, by decide +kernel, by decide, by decide, by decide +kernel⟩

end FlashVolume

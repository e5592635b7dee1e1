import FlashVolume.Directory
import FlashVolume.Host.Volume
import FlashVolume.Proofs.Host.Paths
import FlashVolume.Proofs.Memory.Steps
/-!
# Places for a volume

A volume in memory is named by its mount point, a volume on the host also by the path of its root
and by where that path leads. A `Site` is such a place: the mount point is accepted and is a name,
and no separator ends the path of the root.

`Site.Admits` says which names lead to an entry on both kinds of volume: they are names for the
host, and neither the path of the volume nor that of the host is too long. A path `IsPath` if it is
the mount point followed by such names. It is clean, its stages are such paths as well, and on the
host it stands for the same names below the root.
-/

namespace FlashVolume

/-- Where a volume is, in memory or on the host. -/
structure Site where
  config : Config
  valid : config.validate = .ok ()
  ne_dot : config.mountPoint ≠ "/."
  ne_dots : config.mountPoint ≠ "/.."
  /-- The path of the root on the host. -/
  root : HostPath
  root_open : root.endsInSeparator = false
  /-- Where that path leads. -/
  location : List String
  location_ne : location ≠ []

namespace Site

variable (site : Site)

/-- The path of names on the volume. -/
def path (names : List String) : String :=
  Path.ofNames site.config.mountPoint names

/-- The text can name an entry on both kinds of volume. -/
structure IsName (name : String) : Prop extends Path.IsName name where
  noNul : Char.ofNat 0 ∉ name.toList
  length_le : Text.byteLength name ≤ site.config.maxFileNameLength
  hostLength_le : Text.byteLength name ≤ HostSystem.maxNameLength

/-- The names lead to an entry on both kinds of volume. -/
structure Admits (names : List String) : Prop where
  isName : ∀ name ∈ names, site.IsName name
  allowed : site.config.AllowsPath (Text.byteLength (site.path names))
  hostLength_le : Text.byteLength (site.root.pushAll names).toText ≤ HostSystem.maxPathLength

/-- The path is the mount point followed by names. -/
def IsPath (path : String) : Prop :=
  ∃ names, site.Admits names ∧ path = site.path names

variable {site} {names : List String} {name : String}

/-- The mount point is a separator and a name. -/
theorem exists_segment (site : Site) :
    ∃ segment, Path.IsName segment ∧ site.config.mountPoint = "/" ++ segment := by
  obtain ⟨chars, hne, hsep, hmount⟩ := Config.mountPoint_of_validate site.valid
  have heq : site.config.mountPoint = "/" ++ String.ofList chars := by
    rw [← String.toList_inj, hmount]
    simp
  refine ⟨String.ofList chars, ⟨by simpa using hne, by simpa using hsep, ?_, ?_⟩, heq⟩
  · intro hdot
    exact site.ne_dot (by rw [heq, hdot]; rfl)
  · intro hdots
    exact site.ne_dots (by rw [heq, hdots]; rfl)

/-- A site has a mount point. -/
theorem mountPoint_ne_empty (site : Site) : site.config.mountPoint ≠ "" := by
  obtain ⟨segment, -, hmount⟩ := site.exists_segment
  simp [hmount]

/-- No names lead to the mount point itself. -/
@[simp] theorem path_nil (site : Site) : site.path [] = site.config.mountPoint := rfl

/-- One more name stands behind one more separator. -/
@[simp] theorem path_concat (site : Site) (names : List String) (name : String) :
    site.path (names ++ [name]) = site.path names ++ "/" ++ name :=
  Path.ofNames_concat _ names name

/-- No path of a site is empty. -/
theorem path_ne_empty (site : Site) (names : List String) : site.path names ≠ "" := by
  intro h
  have hchars := congrArg String.toList h
  rw [path, Path.toList_ofNames] at hchars
  simp [site.mountPoint_ne_empty] at hchars

/-- The mount point stands right below the root. -/
theorem parent_path_nil (site : Site) : Path.parent (site.path []) = "/" :=
  Config.parent_mountPoint site.valid

/-- The parent of a path drops its last name. -/
theorem parent_path_concat (site : Site) (names : List String) (hname : '/' ∉ name.toList) :
    Path.parent (site.path (names ++ [name])) = site.path names :=
  Path.parent_ofNames_concat site.mountPoint_ne_empty names hname

/-- The characters of a path are those of the segment of the mount point and of the names. -/
theorem toList_path {segment : String} (hmount : site.config.mountPoint = "/" ++ segment)
    (names : List String) :
    (site.path names).toList = (segment :: names).flatMap fun name => '/' :: name.toList := by
  rw [path, Path.toList_ofNames, hmount]
  simp

/-- No path of a site is the root. -/
theorem path_ne_root (site : Site) (names : List String) : site.path names ≠ "/" := by
  intro h
  obtain ⟨segment, hsegment, hmount⟩ := site.exists_segment
  have hchars := congrArg String.toList h
  rw [toList_path hmount] at hchars
  simp [hsegment.ne_empty] at hchars

namespace Admits

/-- Admitted names have characters. -/
theorem ne_empty (h : site.Admits names) : ∀ name ∈ names, name ≠ "" :=
  fun name hname => (h.isName name hname).ne_empty

/-- Admitted names have no separator. -/
theorem notMem (h : site.Admits names) : ∀ name ∈ names, '/' ∉ name.toList :=
  fun name hname => (h.isName name hname).notMem

/-- The first of the names lead to an entry as well. -/
theorem of_append {rest : List String} (h : site.Admits (names ++ rest)) : site.Admits names := by
  have hne : ∀ name ∈ names, name ≠ "" := fun name hname => h.ne_empty name (by simp [hname])
  have hrest : ∀ name ∈ rest, name ≠ "" := fun name hname => h.ne_empty name (by simp [hname])
  have hlength := Path.byteLength_ofNames (site.path names) rest
  rw [path, ← Path.ofNames_append] at hlength
  have hopen := HostPath.endsInSeparator_pushAll site.root_open hne
  have hhost := HostPath.byteLength_toText_pushAll hopen hrest
  rw [← HostPath.pushAll_append] at hhost
  exact ⟨fun name hname => h.isName name (by simp [hname]), h.allowed.mono hlength,
    Nat.le_trans hhost h.hostLength_le⟩

/-- No separator ends the path on the host. -/
theorem endsInSeparator (h : site.Admits names) :
    (site.root.pushAll names).endsInSeparator = false :=
  HostPath.endsInSeparator_pushAll site.root_open h.ne_empty

end Admits

/-- Different names lead to different entries. -/
theorem path_inj {names' : List String} (h : site.Admits names) (h' : site.Admits names')
    (heq : site.path names = site.path names') : names = names' :=
  Path.ofNames_inj h.notMem h'.notMem heq

/-! ### Paths of requests -/

/-- A path that names something at a site is not empty. -/
theorem IsPath.ne_empty {path : String} (h : site.IsPath path) : path ≠ "" := by
  obtain ⟨names, -, rfl⟩ := h
  exact site.path_ne_empty names

/-- **A path is clean.** -/
theorem IsPath.normalize {path : String} (h : site.IsPath path) :
    Path.normalizeWithin path site.config = .ok path := by
  obtain ⟨names, hnames, rfl⟩ := h
  obtain ⟨segment, hsegment, hmount⟩ := site.exists_segment
  have hisName : ∀ name ∈ segment :: names, Path.IsName name :=
    List.forall_mem_cons.2 ⟨hsegment, fun name hname => (hnames.isName name hname).toIsName⟩
  have hclean := Path.normalizeChars_names hisName
  rw [← toList_path hmount] at hclean
  have hempty : ¬(site.path names).isEmpty = true := by simp [site.path_ne_empty names]
  obtain ⟨bound, hbound, hle⟩ := hnames.allowed
  refine Path.normalizeWithin_eq_ok_iff.2 ⟨bound, hbound, ?_⟩
  rw [Path.normalize, if_neg hempty, if_neg (Nat.not_lt.2 hle), hclean]
  simp

/-- No separator ends a path. -/
theorem Admits.exists_last (hnames : site.Admits names) :
    ∃ before c, (site.path names).toList = before ++ [c] ∧ c ≠ '/' := by
  obtain ⟨segment, hsegment, hmount⟩ := site.exists_segment
  obtain ⟨dir, name, hname, hsplit⟩ : ∃ dir name, Path.IsName name ∧
      (site.path names).toList = dir ++ '/' :: name.toList := by
    cases names using List.reverseRecOn with
    | nil => exact ⟨[], segment, hsegment, by simp [hmount]⟩
    | append_singleton first last =>
      exact ⟨(site.path first).toList, last, (hnames.isName last (by simp)).toIsName, by simp⟩
  rw [hsplit]
  exact Path.exists_last_of_name dir hname

/-- A path that names something at a site ends in no separator. -/
theorem IsPath.trimSeparators {path : String} (h : site.IsPath path) :
    Path.trimSeparators path = path := by
  obtain ⟨names, hnames, rfl⟩ := h
  obtain ⟨before, c, hlast, hc⟩ := hnames.exists_last
  exact Path.trimSeparators_of_last hlast hc

/-- What is below the path of names starts with it and a separator. -/
theorem below_path (h : site.Admits names) :
    Path.below (site.path names) = site.path names ++ "/" := by
  obtain ⟨before, c, hlast, hc⟩ := h.exists_last
  rw [Path.below, hlast, List.getLast?_concat, if_neg (by simpa using hc)]

/-- The stages of a path are paths. -/
theorem IsPath.of_mem_stages {path stage : String} (h : site.IsPath path)
    (hstage : stage ∈ Path.stages path) : site.IsPath stage := by
  obtain ⟨names, hnames, rfl⟩ := h
  obtain ⟨segment, hsegment, hmount⟩ := site.exists_segment
  rw [path, hmount] at hstage
  obtain ⟨first, rest, rfl, rfl⟩ := Path.exists_of_mem_stages hsegment.notMem hnames.notMem hstage
  exact ⟨first, hnames.of_append, by rw [path, hmount]⟩

/-- A name that leads to an entry of a directory resolves there. -/
theorem resolve_of_admits (h : site.Admits (names ++ [name])) :
    Path.resolve (site.path names) name site.config = .ok (site.path (names ++ [name])) := by
  have hname := h.isName name (by simp)
  rw [path_concat]
  refine Path.resolve_of_fits (site.path_ne_empty names) hname.ne_empty hname.length_le ?_
  rw [← path_concat]
  exact h.allowed

/-! ### Paths on the host -/

/-- **A path of names stands for the names below the root.** -/
theorem hostPath?_path {v : HostVolume} (hmount : v.mountPoint = site.config.mountPoint)
    (hroot : v.root = site.root) (h : site.Admits names) :
    v.hostPath? (site.path names) = some (site.root.pushAll names) := by
  cases names with
  | nil => rw [HostVolume.hostPath?, if_pos (by rw [hmount]; rfl), hroot]; rfl
  | cons first rest =>
    obtain ⟨hfirst, hrest⟩ := List.forall_mem_cons.1 h.isName
    have hpath : site.path (first :: rest) =
        site.config.mountPoint ++ ("/" ++ Path.ofNames first rest) := by
      rw [← String.toList_inj, path, Path.toList_ofNames]
      simp [Path.toList_ofNames]
    have hne : ¬site.path (first :: rest) = v.mountPoint := by
      intro heq
      have hlength := congrArg (fun path => path.toList.length)
        (hpath.symm.trans (heq.trans hmount))
      simp at hlength
    have hsplit : HostPath.splitSeparators (Path.ofNames first rest) = first :: rest := by
      rw [HostPath.splitSeparators, Path.toList_ofNames,
        Path.splitOn_names hfirst.notMem fun name hname => (hrest name hname).notMem]
      simp
    have hhead : (Path.ofNames first rest).toList.head? ≠ some '/' := by
      rw [Path.toList_ofNames]
      cases hchars : first.toList with
      | nil => exact absurd hchars (Path.segment_ne hfirst.toIsName).1
      | cons c chars =>
        have hc : c ≠ '/' := by
          rintro rfl
          exact hfirst.notMem (by simp [hchars])
        simpa using hc
    have hnames : HostVolume.names? (Path.ofNames first rest) = some (first :: rest) := by
      have hdots : ".." ∉ first :: rest := fun hmem => (h.isName _ hmem).ne_dots rfl
      have hkept : (first :: rest).filter (fun segment => segment ≠ "" ∧ segment ≠ ".") =
          first :: rest := by
        rw [List.filter_eq_self]
        intro name hname
        exact decide_eq_true ⟨h.ne_empty name hname, (h.isName name hname).ne_dot⟩
      rw [HostVolume.names?, hsplit, hkept, if_neg (by simp [hhead, hdots])]
    rw [HostVolume.hostPath?, if_neg hne, hpath, hmount, Text.stripStem?_append]
    simp only [Option.bind_eq_bind, Option.bind_some, Text.stripStem?_append, hnames, hroot]

end Site
end FlashVolume

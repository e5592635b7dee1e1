import FlashVolume.Proofs.Agreement
import FlashVolume.Proofs.Host.Presentation
import FlashVolume.Proofs.Memory.Presentation
/-!
# Volumes in memory and on the host

The two backends of section 10.2 of the specification.

A volume in memory and a volume on the host that start with nothing below the mount point stay the
same tree, whatever requests are made of both: each request succeeds on both or fails on both, and
the responses differ at most in the order of entries (`MemoryVolume.agrees_hostVolume`).

The paths of the requests are those of the site, so the path of the host is never too long, and
no request reaches behind the largest offset of the host. The root is given by a path that no
separator ends and that does not lead through what stands at the root. Beyond that the two volumes
differ: a read behind the largest offset answers nothing in memory, and is refused by the host
(`MemoryVolume.not_agrees_hostVolume`).
-/

universe u v

namespace FlashVolume

open Operation

/-- The answers of a volume to requests, one after the other, each with the volume after it. -/
def Backend.trace [Allocator] {σ : Type u} (B : Backend σ) (config : Config) (s : σ) :
    List Request → List (Except Error Response × σ)
  | [] => []
  | request :: requests =>
    let answered := runOn B (request.operation config) s
    answered :: B.trace config answered.2 requests

/-- Two answers are alike if both are failures, or both are successes with alike responses. -/
def AnswersAlike : Except Error Response → Except Error Response → Prop
  | .ok response, .ok response' => response.Alike response'
  | .error _, .error _ => True
  | _, _ => False

namespace Presentation

variable {site : Site} {σ : Type u} {τ : Type v} {A : Backend σ} {B : Backend τ}

/-- **A run of requests agrees,** answer by answer and volume by volume. -/
theorem forall₂_trace [Allocator] (P : Presentation site A) (Q : Presentation site B) {s : σ}
    {t : τ} (hst : P.Same Q s t) {requests : List Request}
    (hallowed : ∀ request ∈ requests, site.Allows request) :
    List.Forall₂ (fun x y => AnswersAlike x.1 y.1 ∧ P.Same Q x.2 y.2)
      (A.trace site.config s requests) (B.trace site.config t requests) := by
  induction requests generalizing s t with
  | nil => exact .nil
  | cons request requests ih =>
    obtain ⟨hrequest, hallowed⟩ := List.forall_mem_cons.1 hallowed
    have hmeets := agrees_operation (P := P) (Q := Q) hrequest s t hst
    rw [Backend.trace, Backend.trace]
    generalize runOn A (request.operation site.config) s = x at hmeets
    generalize runOn B (request.operation site.config) t = y at hmeets
    cases hmeets with
    | ok h => exact .cons h (ih h.2 hallowed)
    | error h => exact .cons ⟨trivial, h⟩ (ih h hallowed)

end Presentation

/-! ### The same tree -/

/-- Below the mount point of the one volume and below the root of the other there are the same
paths, with the same kinds and contents. -/
structure SameTree (site : Site) (v : MemoryVolume) (w : HostVolume) : Prop where
  node : ∀ names, site.Admits names →
    (w.system.node? (site.location ++ names)).map w.system.view = v.pathMap (site.path names)
  /-- Nothing else is on the volume in memory. -/
  memory : ∀ path, v.pathMap path ≠ none → path = "/" ∨ site.IsPath path
  /-- Nothing else is below the root on the host. -/
  host : ∀ names, w.system.node? (site.location ++ names) ≠ none → site.Admits names

/-- The volume is mounted, without faults, and has nothing below its mount point. -/
structure MemoryVolume.IsBlank (site : Site) (v : MemoryVolume) : Prop where
  mounted : v.mounted = true
  faults : v.faults = {}
  map : v.pathMap = (MemoryVolume.new site.config.mountPoint).pathMap

/-- The volume is mounted, its root is a directory of the host, and nothing is below the root. -/
structure HostVolume.IsBlank (site : Site) (w : HostVolume) : Prop where
  mounted : w.mounted = true
  mountPoint : w.mountPoint = site.config.mountPoint
  root : w.root = site.root
  leads : w.system.LeadsTo site.root site.location
  directory : ∃ number, w.system.node? site.location = some (.directory number)
  empty : ∀ names, names ≠ [] → w.system.node? (site.location ++ names) = none

section Same

variable {site : Site} {v : MemoryVolume} {w : HostVolume}

/-- Volumes that show the same files to a site have the same tree below its mount point. -/
theorem sameTree_of_same
    (h : (MemoryVolume.presentation site).Same (HostVolume.presentation site) v w) :
    SameTree site v w := by
  obtain ⟨m, hv, hw⟩ := h
  have hmap : v.pathMap = m := hv.map
  subst hmap
  exact ⟨hw.mirrors.node, hv.fits.isPath, hw.mirrors.admits⟩

/-- A new volume has nothing below its mount point. -/
theorem MemoryVolume.pathMap_new_path {names : List String} (hnames : site.Admits names) :
    (MemoryVolume.new site.config.mountPoint).pathMap (site.path names) =
      if names = [] then some .directory else none := by
  have hmount : site.Admits [] := hnames.of_append
  rw [pathMap_new, ← site.path_nil, Site.update_path hmount hnames]
  exact if_congr Iff.rfl rfl (if_neg (site.path_ne_root names))

/-- A new volume holds its mount point and nothing else, which fits the site. -/
theorem MemoryVolume.fits_pathMap_new (hmount : site.Admits []) :
    site.Fits (MemoryVolume.new site.config.mountPoint).pathMap := by
  refine ⟨(isOrderly_new site.valid).tree, fun path hpath => ?_⟩
  by_cases hroot : path = "/"
  · exact .inl hroot
  · by_cases hsame : path = site.config.mountPoint
    · exact .inr ⟨[], hmount, hsame⟩
    · rw [pathMap_new, PathMap.update, if_neg hsame, PathMap.update, if_neg hroot] at hpath
      exact absurd rfl hpath

/-- Volumes with nothing on them show the same map. -/
theorem same_of_isBlank (hmount : site.Admits []) (hv : v.IsBlank site) (hw : w.IsBlank site) :
    (MemoryVolume.presentation site).Same (HostVolume.presentation site) v w := by
  have hfits := MemoryVolume.fits_pathMap_new hmount
  obtain ⟨number, hdirectory⟩ := hw.directory
  have hroot : w.system.node? (site.location ++ []) = some (.directory number) := by
    rw [List.append_nil]
    exact hdirectory
  have hfile : ∀ names k, w.system.node? (site.location ++ names) ≠ some (.file k) := by
    intro names k hk
    by_cases hnames : names = []
    · rw [hnames, hroot] at hk
      cases hk
    · rw [hw.empty names hnames] at hk
      cases hk
  have hmirrors : w.system.Mirrors site (MemoryVolume.new site.config.mountPoint).pathMap := by
    refine ⟨hfits, hw.leads, fun names hnames => ?_, fun names hpresent => ?_, ?_, ?_⟩
    · rw [MemoryVolume.pathMap_new_path hnames]
      by_cases hempty : names = []
      · rw [if_pos hempty, hempty, hroot]
        rfl
      · rw [if_neg hempty, hw.empty names hempty]
        rfl
    · by_cases hempty : names = []
      · rw [hempty]
        exact hmount
      · exact absurd (hw.empty names hempty) hpresent
    · exact fun names k hk => absurd hk (hfile names k)
    · exact fun names _ k hk => absurd hk (hfile names k)
  exact ⟨_, ⟨⟨hv.mounted, hv.faults⟩, hv.map, hfits⟩,
    ⟨hw.mounted, hw.mountPoint, hw.root, hmirrors⟩⟩

end Same

/-- **A volume in memory and a volume on the host agree.**  From volumes with nothing on them, every
request that the site allows succeeds on both or fails on both, with responses that differ at most
in the order of entries, and after each request the two are the same tree. -/
theorem MemoryVolume.agrees_hostVolume [Allocator] {site : Site} {v : MemoryVolume} {w : HostVolume}
    (hv : v.IsBlank site) (hw : w.IsBlank site) {requests : List Request}
    (hallowed : ∀ request ∈ requests, site.Allows request) :
    List.Forall₂ (fun x y => AnswersAlike x.1 y.1 ∧ SameTree site x.2 y.2)
      (MemoryVolume.backend.trace site.config v requests)
      (HostVolume.backend.trace site.config w requests) := by
  cases requests with
  | nil => exact .nil
  | cons request requests =>
    -- The path of any request shows that the mount point is short enough to be one.
    obtain ⟨names, hnames, -⟩ := (hallowed request List.mem_cons_self).path
    have hsame := same_of_isBlank hnames.of_append hv hw
    refine (Presentation.forall₂_trace _ _ hsame hallowed).imp ?_
    rintro x y ⟨halike, hst⟩
    exact ⟨halike, sameTree_of_same hst⟩

/-! ### One place -/

/-- The volume `/lfs`, whose root is `root` in the working directory `/work`. -/
def Site.work : Site where
  config := {}
  valid := by decide
  ne_dot := by decide
  ne_dots := by decide
  root := .ofText "root"
  root_open := by decide
  location := ["work", "root"]
  location_ne := by decide

/-- The volume `/lfs` on a host that has nothing but the directory `/work/root`, which the root is a
path to from `/work`. -/
def HostVolume.atWork (root : HostPath) : HostVolume where
  mountPoint := "/lfs"
  root := root
  mounted := true
  system :=
    { HostSystem.new (.ascending default) ["work", "root"] with workingDirectory := ["work"] }

/-- A new volume is blank once it is mounted. -/
theorem MemoryVolume.isBlank_newMounted (site : Site) :
    (newMounted site.config.mountPoint).IsBlank site :=
  ⟨rfl, rfl, rfl⟩

/-- The path `root` leads to the root, whatever stands there. -/
theorem HostVolume.isBlank_atWork : (atWork (.ofText "root")).IsBlank Site.work := by
  refine ⟨rfl, rfl, rfl, ?_, ⟨0, rfl⟩, ?_⟩
  · intro h hdir hnodes
    have hwork : h.node? ["work"] = some (.directory 0) := by
      rw [hnodes _ (by decide)]
      rfl
    have hstart : h.workingDirectory = ["work"] := hdir
    have hstep : HostSystem.IsStep "root" := ⟨by decide, by decide, by decide⟩
    rw [HostSystem.locate_eq_walk (by decide) (by decide) (by decide), hstart]
    exact (HostSystem.walk_directory hwork hstep []).trans rfl
  · intro names hnames
    have hlong : ∀ l : List String, l.length ≤ 2 → Site.work.location ++ names ≠ l := by
      intro l hl heq
      have hlength := congrArg List.length heq
      have hpos : 0 < names.length := List.length_pos_iff.2 hnames
      rw [List.length_append] at hlength
      change 2 + names.length = l.length at hlength
      omega
    have hnodes : (atWork (.ofText "root")).system.nodes =
        (Std.TreeMap.empty.insert ["work"] (.directory 0)).insert ["work", "root"] (.directory 0) :=
      rfl
    have hroot := hlong [] (by decide)
    have hwork := hlong ["work"] (by decide)
    have hboth := hlong ["work", "root"] (by decide)
    simp [HostSystem.node?, hnodes, hroot, hwork.symm, hboth.symm]

/-- A directory is made, filled and cleared, and then the mount point itself is removed and comes
back as a file. -/
theorem MemoryVolume.agrees_hostVolume_atWork :
    let _ : Allocator := .upTo 1024 16
    let requests : List Request := [.makePath "/lfs/d" true, .writeIn "/lfs/d" "a" [1, 2],
      .file (.read "/lfs/d/a" 1 [0, 0]), .list "/lfs/d", .deleteMatching "/lfs/d" "a",
      .file (.delete "/lfs/d"), .file (.delete "/lfs"), .file (.append "/lfs" [1]),
      .digest "/lfs" 1 .crc32]
    (newMounted "/lfs").IsBlank Site.work ∧
      (HostVolume.atWork (.ofText "root")).IsBlank Site.work ∧
      (∀ request ∈ requests, Site.work.Allows request) ∧
      List.Forall₂ (fun x y => AnswersAlike x.1 y.1 ∧ SameTree Site.work x.2 y.2)
        (MemoryVolume.backend.trace Site.work.config (newMounted "/lfs") requests)
        (HostVolume.backend.trace Site.work.config (HostVolume.atWork (.ofText "root"))
          requests) := by
  intro machine requests
  have hname : ∀ name, name = "d" ∨ name = "a" → Site.work.IsName name := by
    rintro _ (rfl | rfl) <;>
      exact ⟨⟨by decide, by decide, by decide, by decide⟩, by decide, by decide, by decide⟩
  have hfile : Site.work.Admits (["d"] ++ ["a"]) :=
    ⟨fun name hmem => hname name (by simpa using hmem), by decide, by decide⟩
  have hdir : Site.work.Admits ["d"] := hfile.of_append
  have hmount : Site.work.Admits [] := by
    rw [← List.nil_append ["d"]] at hdir
    exact hdir.of_append
  have allow : ∀ {request : Request} {names : List String}, Site.work.Admits names →
      request.path = Site.work.path names → request.name? = none →
      request.reach ≤ HostSystem.maxOffset → Site.work.Allows request := by
    intro request names hnames hpath hnone hreach
    exact ⟨⟨names, hnames, hpath⟩, by simp [hnone], hreach⟩
  have hwrite : Site.work.Allows (.writeIn "/lfs/d" "a" [1, 2]) := by
    refine ⟨⟨["d"], hdir, rfl⟩, ?_, by decide⟩
    rintro name ⟨⟩ path hpath
    have hsame := (Site.resolve_of_admits hfile).symm.trans hpath
    exact ⟨["d", "a"], hfile, (Except.ok.inj hsame).symm⟩
  have hallowed : ∀ request ∈ requests, Site.work.Allows request := by
    simp only [requests, List.forall_mem_cons]
    exact ⟨allow hdir rfl rfl (by decide), hwrite, allow hfile rfl rfl (by decide),
      allow hdir rfl rfl (by decide), allow hdir rfl rfl (by decide),
      allow hdir rfl rfl (by decide), allow hmount rfl rfl (by decide),
      allow hmount rfl rfl (by decide), allow hmount rfl rfl (by decide), List.forall_mem_nil _⟩
  exact ⟨isBlank_newMounted Site.work, HostVolume.isBlank_atWork, hallowed,
    agrees_hostVolume (isBlank_newMounted Site.work) HostVolume.isBlank_atWork hallowed⟩

/-! ### Limits of the host -/

/-- Every `.` before the names makes a path longer. -/
theorem HostPath.byteLength_dots (n : Nat) {names : List String} (hnames : names ≠ []) :
    Text.byteLength (toText ⟨List.replicate n "." ++ names⟩) =
      2 * n + Text.byteLength (toText ⟨names⟩) := by
  induction n with
  | zero =>
    rw [Nat.mul_zero, Nat.zero_add]
    rfl
  | succ n ih =>
    have hrest : List.replicate n "." ++ names ≠ [] := by simp [hnames]
    have hdot : (String.intercalate "/" ["."]).utf8ByteSize = 1 := by decide
    have hseparator : "/".utf8ByteSize = 1 := by decide
    simp only [Text.byteLength, toText] at ih ⊢
    rw [List.replicate_succ, List.cons_append, ← List.singleton_append,
      String.intercalate_append_of_ne_nil (by simp) hrest, String.utf8ByteSize_append,
      String.utf8ByteSize_append, ih, hdot, hseparator]
    omega

/-- A host with a path that is too long opens nothing. -/
theorem HostVolume.open_tooLong {w : HostVolume} (hmounted : w.mounted = true) {path : String}
    {real : HostPath} (hpath : w.hostPath? path = some real)
    (hlength : HostSystem.maxPathLength < Text.byteLength real.toText) (mode : OpenMode) :
    ∃ e, backend.answer (.open path mode) w = (.error e, w) := by
  have hlocate : ∃ e, w.system.locate real = .error e := by
    by_cases hnul : real.hasNul = true
    · exact ⟨_, if_pos hnul⟩
    · exact ⟨_, (if_neg hnul).trans (if_pos hlength)⟩
  obtain ⟨e, hlocate⟩ := hlocate
  have hdir : w.system.isDirectory real = false := by
    simp [HostSystem.isDirectory, HostSystem.lookup, HostSystem.find, hlocate, bind, Except.bind,
      Except.map]
  obtain ⟨e', herror⟩ := onHost_error (HostSystem.openFile_not_located hlocate mode)
  refine ⟨e', ?_⟩
  simp only [backend, answer, HostVolume.open, onPath, realPath, hmounted, hpath, hdir, if_true]
  rw [herror]
  rfl

/-- A file right below the mount point is refused if its path on the host is too long. -/
theorem HostVolume.append_tooLong {root : HostPath}
    (hlength : HostSystem.maxPathLength < Text.byteLength (root.pushAll ["a"]).toText)
    (data : Bytes) :
    ∃ e, (runOn backend (File.append "/lfs/a" data) (atWork root)).1 = .error e := by
  have hpath : (atWork root).hostPath? "/lfs/a" = some (root.pushAll ["a"]) := by
    have hrest : Text.stripStem? "/lfs" "/lfs/a" = some "/a" := by rfl
    have hrelative : Text.stripStem? "/" "/a" = some "a" := by rfl
    have hnames : names? "a" = some ["a"] := by rfl
    simp [hostPath?, atWork, hrest, hrelative, hnames]
  obtain ⟨e, hanswer⟩ := open_tooLong rfl hpath hlength .appending
  refine ⟨.ofStorage e, ?_⟩
  simp [File.append, runOn_withFile, hanswer]

/-- **Where the host has limits of its own, the volumes differ:** a read that would end behind the
largest offset; a root that is given by a path with a separator at its end, or by one that goes
through what stands there; a path of the host that is too long. -/
theorem MemoryVolume.not_agrees_hostVolume :
    letI : Allocator := .upTo 1024 16
    let answers {σ : Type} (B : Backend σ) (s : σ) (requests : List Request) :=
      (B.trace {} s requests).map Prod.fst
    let memory := answers MemoryVolume.backend (newMounted "/lfs")
    let host (root : HostPath) := answers HostVolume.backend (HostVolume.atWork root)
    let behind : List Request := [.file (.write "/lfs/a" [1]),
      .file (.read "/lfs/a" (2 ^ 63 - 1) [0, 0])]
    let again : List Request := [.file (.delete "/lfs"), .file (.append "/lfs" [1])]
    let append : List Request := [.file (.append "/lfs/a" [1])]
    (memory behind = [.ok (.number 1), .ok (.filled ⟨0, [0, 0]⟩)] ∧
      ∃ e, host (.ofText "root") behind = [.ok (.number 1), .error e]) ∧
    (memory again = [.ok .done, .ok (.number 1)] ∧
      (∃ e, host (.ofText "root/") again = [.ok .done, .error e]) ∧
      ∃ e answer, host (.ofText "root/.") again = [.error e, answer]) ∧
    memory append = [.ok (.number 1)] ∧
      ∃ e, host ⟨List.replicate 2045 "." ++ ["root"]⟩ append = [.error e] := by
  intro answers memory host behind again append
  refine ⟨⟨rfl, _, rfl⟩, ⟨rfl, ⟨_, rfl⟩, ⟨_, _, rfl⟩⟩, rfl, ?_⟩
  -- The path of the host is one byte longer than the host takes.
  have hlength : HostSystem.maxPathLength < Text.byteLength
      (HostPath.pushAll ⟨List.replicate 2045 "." ++ ["root"]⟩ ["a"]).toText := by
    have hopen : HostPath.endsInSeparator ⟨List.replicate 2045 "." ++ ["root"]⟩ = false :=
      HostPath.endsInSeparator_of_segments rfl (by decide)
    have hname : ∀ name ∈ ["a"], name ≠ "" := by decide
    have hpush : HostPath.pushAll ⟨List.replicate 2045 "." ++ ["root"]⟩ ["a"] =
        ⟨List.replicate 2045 "." ++ ["root", "a"]⟩ := by
      have hsegments := HostPath.segments_pushAll hopen hname
      rw [List.append_assoc] at hsegments
      exact congrArg HostPath.mk hsegments
    rw [hpush, HostPath.byteLength_dots 2045 (List.cons_ne_nil _ _)]
    decide
  obtain ⟨e, hrun⟩ := HostVolume.append_tooLong hlength [1]
  refine ⟨e, ?_⟩
  change [(runOn HostVolume.backend (Response.number <$> File.append "/lfs/a" [1])
    (HostVolume.atWork ⟨List.replicate 2045 "." ++ ["root"]⟩)).1] = _
  rw [runOn_map, hrun]
  rfl

end FlashVolume

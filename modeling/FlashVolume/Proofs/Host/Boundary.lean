import FlashVolume.Proofs.Footprints
import FlashVolume.Proofs.Host.Confinement
import FlashVolume.Proofs.Host.Translation
/-!
# The boundary of a volume on the host

Section 10.2 of the specification: paths outside the mount point are rejected.

A volume whose handles are its own sees its realm and nothing else: what a program of calls answers
depends on nothing outside, and what is outside stays as it was. `mount` alone does anything there:
it creates directories that are missing on the way to the root.

The contents of a file belong to the volume if the file stands at the root or below it. A file that
has another name outside is therefore one of the volume's own, and so is every file to come.
-/

namespace FlashVolume

namespace HostVolume

/-- The location that the root names. -/
def place (v : HostVolume) : List String :=
  HostPath.lead (if v.root.isAbsolute then [] else v.system.workingDirectory) v.root.parts

/-- The part of the host that the volume may see. -/
def realm (v : HostVolume) : Realm where
  workingDirectory := v.system.workingDirectory
  root := v.root
  owns k := v.system.contents.length ≤ k ∨
    ∃ l, v.place <+: l ∧ v.system.node? l = some (.file k)

/-- Nothing has been opened. -/
structure IsFresh (v : HostVolume) : Prop where
  files : v.system.files = {}
  directories : v.system.directories = {}

/-- The volumes have the same root, and their hosts are alike in the realm. -/
structure AlikeIn (r : Realm) (v w : HostVolume) : Prop where
  isRoot : v.root = r.root
  root : v.root = w.root
  mountPoint : v.mountPoint = w.mountPoint
  mounted : v.mounted = w.mounted
  system : r.Alike v.system w.system

/-- The call does the same on two volumes, and spares what is outside. -/
abbrev Confined (r : Realm) (built : List String → Prop) {α : Type} (v : HostVolume)
    (x y : α × HostVolume) : Prop :=
  Abreast (AlikeIn r) (fun v v' => r.Spares built v.system v'.system) v x y

variable {r : Realm} {built : List String → Prop} {v w : HostVolume} {path : String} {α β : Type}

/-- A fresh volume is within its realm. -/
theorem IsFresh.within (h : v.IsFresh) : v.realm.Within v.system where
  workingDirectory := rfl
  number l _ hin hfile := .inr ⟨l, hin, hfile⟩
  fresh _ hk := .inl hk
  files := by
    rw [h.files]
    exact Handles.all_empty
  directories := by
    rw [h.directories]
    exact Handles.all_empty

/-- Where a path of the host leads that a path of the volume stands for. -/
theorem StandsFor.inside {real : HostPath} (h : v.StandsFor path real) (hroot : v.root = r.root) :
    r.Passes real ∧ r.Inside (r.target real) := by
  obtain ⟨names, hnames, rfl, -⟩ := h.exists_names
  have hempty : ∀ name ∈ names, name ≠ "" := fun name hname => (hnames name hname).ne_empty
  have hdots : ∀ name ∈ names, name ≠ "." ∧ name ≠ ".." :=
    fun name hname => ⟨(hnames name hname).ne_dot, (hnames name hname).ne_dots⟩
  rw [hroot]
  refine ⟨Realm.passes_pushAll hempty hdots, ?_⟩
  rw [Realm.target_pushAll hempty hdots]
  exact List.prefix_append _ _

/-- A path that is resolved stands below the root directory. -/
theorem realPath_ok {real : HostPath} (h : v.realPath path = .ok real) : v.StandsFor path real := by
  cases hmounted : v.mounted with
  | false => simp [realPath, hmounted] at h
  | true => exact (realPath_eq_ok hmounted).1 h

namespace AlikeIn

variable (hv : AlikeIn r v w)
include hv

/-- Volumes stay alike when their systems are. -/
theorem withSystem {h₁ h₂ : HostSystem} (ha : r.Alike h₁ h₂) :
    AlikeIn r { v with system := h₁ } { w with system := h₂ } :=
  { hv with system := ha }

/-- An answer that looks at nothing is confined. -/
theorem unchanged (a : α) : Confined r built v (a, v) (a, w) :=
  ⟨rfl, hv, .refl v.system⟩

/-- A call of the host's that is confined is confined when the volume makes it. -/
theorem onHost {call : HostSystem → HostSystem.Answer α}
    (hcall : r.Confined built v.system (call v.system) (call w.system)) :
    Confined r built v (v.onHost call) (w.onHost call) :=
  ⟨congrArg (Except.mapError StorageError.ofSystem) hcall.answer, hv.withSystem hcall.after,
    hcall.kept⟩

/-- How a path is resolved does not depend on what is outside. -/
theorem realPath (path : String) : v.realPath path = w.realPath path := by
  rw [HostVolume.realPath, HostVolume.realPath, hostPath?, hostPath?, hv.mounted, hv.mountPoint,
    hv.root]

/-- A call on a path is a call in the realm, or none. -/
theorem onPath {call : HostPath → HostVolume → Answer α}
    (hcall : ∀ real, r.Passes real → r.Inside (r.target real) →
      Confined r built v (call real v) (call real w)) :
    Confined r built v (v.onPath path call) (w.onPath path call) := by
  rw [HostVolume.onPath, HostVolume.onPath, ← hv.realPath]
  cases hreal : v.realPath path with
  | error e => exact hv.unchanged _
  | ok real =>
    obtain ⟨hp, hin⟩ := (realPath_ok hreal).inside hv.isRoot
    exact hcall real hp hin

/-! ### Calls -/

/-- Mounting builds the way to the root directory, and does nothing else outside. -/
theorem mount (hbuilt : ∀ l, r.OnWay l → built l) : Confined r built v v.mount w.mount := by
  have hp : r.Passes v.root := hv.isRoot ▸ r.passes_root
  have hfirst : Confined r built v (v.onHost (HostSystem.createDirectories v.root))
      (w.onHost (HostSystem.createDirectories v.root)) :=
    hv.onHost (hv.system.createDirectories hp fun l hl => (hl.imp_left (hbuilt l)).symm)
  rw [HostVolume.mount, HostVolume.mount, ← hv.root]
  generalize v.onHost (HostSystem.createDirectories v.root) = x at hfirst ⊢
  generalize w.onHost (HostSystem.createDirectories v.root) = y at hfirst ⊢
  obtain ⟨a, v'⟩ := x
  obtain ⟨b, w'⟩ := y
  obtain ⟨hanswer, hv', hs⟩ := hfirst
  obtain rfl : a = b := hanswer
  cases a with
  | error e => exact ⟨rfl, hv', hs⟩
  | ok _ =>
    have hp' : r.Passes v'.root := hv'.isRoot ▸ r.passes_root
    have hroot : v'.root = w'.root := hv'.root
    have hdirectory : v'.system.isDirectory v'.root = w'.system.isDirectory w'.root := by
      rw [← hroot]
      exact hv'.system.isDirectory hp'
    dsimp only
    rw [← hdirectory]
    split
    · exact ⟨rfl, { hv' with mounted := rfl }, hs⟩
    · exact ⟨by rw [hroot], hv', hs⟩

/-- The sizes of the file system are asked at the root directory. -/
theorem statvfs (path : String) : Confined r built v (v.statvfs path) (w.statvfs path) := by
  refine hv.onPath fun real hp hin => ?_
  split
  · exact hv.unchanged _
  · refine hv.onHost ?_
    rw [← hv.system.find hp]
    cases hf : v.system.find real with
    | error e => exact hv.system.unchanged _
    | ok found =>
      obtain ⟨l, node⟩ := found
      obtain ⟨rfl, -⟩ := hv.system.within.target_of_find hf
      exact ⟨congrArg Except.ok (hv.system.volumeStats _ hin), hv.system, .refl v.system⟩

/-- Opening looks inside only, and creates inside only. -/
theorem «open» (path : String) (mode : OpenMode) :
    Confined r built v (v.open path mode) (w.open path mode) := by
  refine hv.onPath fun real hp hin => ?_
  rw [← hv.system.isDirectory hp]
  split
  · exact hv.unchanged _
  · exact (hv.onHost (hv.system.openFile hp hin mode)).map _

/-- An entry is looked up inside only. -/
theorem stat (path : String) : Confined r built v (v.stat path) (w.stat path) := by
  refine hv.onPath fun real hp hin => hv.onHost ?_
  rw [← hv.system.map_entry_lookup hp hin]
  exact hv.system.unchanged _

/-- A directory is opened inside only. -/
theorem opendir (path : String) : Confined r built v (v.opendir path) (w.opendir path) := by
  refine hv.onPath fun real hp hin => ?_
  rw [← hv.system.isFile hp]
  split
  · exact hv.unchanged _
  · exact (hv.onHost (hv.system.openDirectory hp hin)).map _

/-- A directory is made inside only. -/
theorem mkdir (path : String) : Confined r built v (v.mkdir path) (w.mkdir path) :=
  hv.onPath fun _ hp hin => hv.onHost (hv.system.createDirectory hp (.inl hin))

/-- What is removed is inside. -/
theorem unlink (path : String) : Confined r built v (v.unlink path) (w.unlink path) := by
  refine hv.onPath fun real hp hin => ?_
  rw [← hv.system.isDirectory hp]
  split
  · exact hv.onHost (hv.system.removeDirectory hp hin)
  · exact hv.onHost (hv.system.removeFile hp hin)

/-- **Each call does the same on volumes that are alike,** and spares what is outside. -/
theorem answer (c : Call α) (hbuilt : c.Mounts → ∀ l, r.OnWay l → built l) :
    Confined r built v (backend.answer c v) (backend.answer c w) := by
  cases c with
  | mount => exact hv.mount (hbuilt trivial)
  | statvfs path => exact hv.statvfs path
  | «open» path mode => exact hv.open path mode
  | read file length => exact hv.onHost (hv.system.readFile file.index length)
  | write file data => exact hv.onHost (hv.system.writeFile file.index data)
  | seek file offset => exact hv.onHost (hv.system.seekFile file.index offset)
  | truncate file length => exact hv.onHost (hv.system.truncateFile file.index length)
  | close file => exact hv.onHost (hv.system.closeFile file.index)
  | stat path => exact hv.stat path
  | opendir path => exact hv.opendir path
  | readdir dir => exact hv.onHost (hv.system.nextEntry dir.index)
  | closedir dir => exact hv.onHost (hv.system.closeDirectory dir.index)
  | mkdir path => exact hv.mkdir path
  | unlink path => exact hv.unlink path

/-- **A program does the same on volumes that are alike,** and spares what is outside. -/
theorem run {p : Program α}
    (hp : p.Only fun c => c.Mounts → ∀ l, r.OnWay l → built l) :
    Confined r built v (p.run backend v) (p.run backend w) :=
  hp.run_abreast (fun v => .refl v.system) (fun _ _ _ => .trans)
    (fun c _ _ hbuilt hv => hv.answer c hbuilt) hv

end AlikeIn

/-! ### Volumes from the start -/

/-- The volumes differ at most in what is outside of the realm of the first one. -/
structure DiffersOutside (v w : HostVolume) : Prop where
  mountPoint : w.mountPoint = v.mountPoint
  root : w.root = v.root
  mounted : w.mounted = v.mounted
  workingDirectory : w.system.workingDirectory = v.system.workingDirectory
  arrange : ∀ l, v.place <+: l → w.system.traits.arrange l = v.system.traits.arrange l
  volumeStats : ∀ l, v.place <+: l → w.system.traits.volumeStats l = v.system.traits.volumeStats l
  node : ∀ l, v.realm.OnWay l ∨ v.place <+: l → w.system.node? l = v.system.node? l
  data : ∀ l k, v.place <+: l → v.system.node? l = some (.file k) →
    w.system.data k = v.system.data k
  count : w.system.contents.length = v.system.contents.length
  nextDirectory : w.system.nextDirectory = v.system.nextDirectory
  files : w.system.files = v.system.files
  directories : w.system.directories = v.system.directories

/-- Fresh volumes that differ outside only are alike. -/
theorem DiffersOutside.alikeIn (h : v.DiffersOutside w) (hv : v.IsFresh) :
    AlikeIn v.realm v w where
  isRoot := rfl
  root := h.root.symm
  mountPoint := h.mountPoint.symm
  mounted := h.mounted.symm
  system :=
    { within := hv.within
      workingDirectory := h.workingDirectory.symm
      arrange := fun l hl => (h.arrange l hl).symm
      volumeStats := fun l hl => (h.volumeStats l hl).symm
      node := fun l hl => (h.node l hl).symm
      data := by
        rintro k (hk | ⟨l, hin, hfile⟩)
        · -- Neither host has a file with this number.
          have hk' : w.system.contents.length ≤ k := h.count ▸ hk
          rw [HostSystem.data, HostSystem.data, List.getElem?_eq_none hk,
            List.getElem?_eq_none hk']
        · exact (h.data l k hin hfile).symm
      count := h.count.symm
      nextDirectory := h.nextDirectory.symm
      files := h.files.symm
      directories := h.directories.symm }

/-- A volume differs from itself nowhere. -/
theorem DiffersOutside.refl (v : HostVolume) : v.DiffersOutside v :=
  ⟨rfl, rfl, rfl, rfl, fun _ _ => rfl, fun _ _ => rfl, fun _ _ => rfl, fun _ _ _ _ => rfl, rfl, rfl,
    rfl, rfl⟩

/-- **What is outside stays,** except for directories that `mount` creates on the way to the
root. -/
theorem IsFresh.spares (hv : v.IsFresh) {p : Program α}
    (hp : p.Only fun c => c.Mounts → ∀ l, v.realm.OnWay l → built l) :
    v.realm.Spares built v.system (p.run backend v).2.system :=
  (((DiffersOutside.refl v).alikeIn hv).run hp).kept

/-- Where the path of the host leads that a path stands for. -/
theorem StandsFor.exists_location {real : HostPath} (h : v.StandsFor path real) :
    ∃ names, (∀ name ∈ names, HostPath.IsOrdinary name) ∧ real = v.root.pushAll names ∧
      real.isAbsolute = v.root.isAbsolute ∧ real.parts = v.root.parts ++ names ∧
      ∀ l, v.system.locate real = .ok l → l = v.place ++ names := by
  obtain ⟨names, hnames, hreal, habsolute, hparts⟩ := h.exists_names
  refine ⟨names, hnames, hreal, habsolute, hparts, fun l hl => ?_⟩
  obtain ⟨hnul, hlength, hempty⟩ := HostSystem.locate_ok hl
  rw [HostSystem.locate_eq_walk hnul hlength hempty, habsolute, hparts] at hl
  rw [HostSystem.eq_lead_of_walk hl, HostPath.lead_append, HostPath.lead_names fun name hname =>
    ⟨(hnames name hname).ne_dot, (hnames name hname).ne_dots⟩]
  rfl

/-- **A volume on the host never leaves its root.**

A path of a mounted volume is a path of the host if it is the mount point, or goes on behind it with
one separator and without `..`; then it is the root with ordinary names below it, and the location
that it names, if it names one, is that of the root with the same names. Every other path is
refused by each call that names it, and the volume stays as it was.

Whatever program of calls runs on a volume that is fresh, each location that is not that of the root
or below it has what it had before, except that a directory may be new where nothing was on the way
to the root; and each file that does not stand at the root or below it has the contents that it had
before. If `mount` is not called, not even such a directory is new, and no operation of the library
calls it. What is outside, on the other hand, makes no difference to what a program answers. -/
theorem never_leaves_root (v : HostVolume) :
    (v.mounted = true → ∀ path : String,
      (∀ real, v.realPath path = .ok real ↔ v.StandsFor path real) ∧
      (∀ real, v.StandsFor path real → ∃ names, (∀ name ∈ names, HostPath.IsOrdinary name) ∧
        real = v.root.pushAll names ∧ real.isAbsolute = v.root.isAbsolute ∧
        real.parts = v.root.parts ++ names ∧
        ∀ l, v.system.locate real = .ok l → l = v.place ++ names) ∧
      ((∀ real, ¬v.StandsFor path real) → v.realPath path = .error (.invalidPath path) ∧
        ∀ {α : Type} (c : Call α), c.path? = some path →
          backend.answer c v = (.error (.invalidPath path), v))) ∧
    (v.IsFresh →
      (∀ {α : Type} (p : Program α),
        v.realm.Spares v.realm.OnWay v.system (p.run backend v).2.system) ∧
      (∀ {α : Type} (p : Program α), p.Only (fun c => ¬c.Mounts) →
        v.realm.Spares (fun _ => False) v.system (p.run backend v).2.system) ∧
      (∀ [Allocator] (config : Config) (request : Request), v.realm.Spares (fun _ => False) v.system
        (Operation.runOn backend (request.operation config) v).2.system) ∧
      ∀ w, v.DiffersOutside w → ∀ {α : Type} (p : Program α),
        (p.run backend w).1 = (p.run backend v).1) := by
  refine ⟨fun hmounted path => ⟨fun real => realPath_eq_ok hmounted,
    fun real h => h.exists_location, fun h => ⟨realPath_refused hmounted h, fun c hc =>
      answer_refused hmounted h hc⟩⟩, fun hfresh => ?_⟩
  have hall : ∀ {α : Type} (p : Program α),
      p.Only fun c => c.Mounts → ∀ l, v.realm.OnWay l → v.realm.OnWay l :=
    fun p => p.only_true.mono fun _ _ _ l hl => hl
  have hnone : ∀ {α : Type} {p : Program α}, p.Only (fun c => ¬c.Mounts) →
      p.Only fun c => c.Mounts → ∀ l, v.realm.OnWay l → False :=
    fun hp => hp.mono fun _ hc hmounts => absurd hmounts hc
  refine ⟨fun p => hfresh.spares (hall p), fun p hp => hfresh.spares (hnone hp),
    fun {_} config request => hfresh.spares (hnone (request.operation_not_mounts config)), ?_⟩
  intro w hw α p
  exact ((hw.alikeIn hfresh).run (hall p)).answer.symm

/-- The volume `/lfs` with the root `/srv/vol`, which is not there yet, next to a file
`/srv/secret`. -/
def besideSecret : HostVolume where
  mountPoint := "/lfs"
  root := .ofText "/srv/vol"
  mounted := true
  system :=
    { traits := .ascending default
      workingDirectory := []
      nodes := (Std.TreeMap.empty.insert ["srv"] (.directory 0)).insert ["srv", "secret"] (.file 0)
      contents := [[1, 2, 3]] }

/-- The volume without the secret. -/
def besideNothing : HostVolume :=
  { besideSecret with system := besideSecret.system.remove ["srv", "secret"] }

/-- The secret is the only file. -/
theorem eq_secret_of_file {l : List String} {k : Nat}
    (h : besideSecret.system.node? l = some (.file k)) : l = ["srv", "secret"] := by
  by_contra hne
  by_cases hsrv : l = ["srv"]
  · have hdirectory : besideSecret.system.node? ["srv"] = some (.directory 0) := by rfl
    rw [hsrv, hdirectory] at h
    cases h
  · simp [besideSecret, HostSystem.node?, Ne.symm hne, Ne.symm hsrv] at h

/-- A file beside the root directory is a difference outside. -/
theorem differsOutside_besideNothing : besideSecret.DiffersOutside besideNothing := by
  refine { DiffersOutside.refl besideSecret with node := fun l hl => ?_ }
  have hne : l ≠ ["srv", "secret"] := by
    rintro rfl
    rcases hl with ⟨before, hbefore, hlead⟩ | hin
    · have hparts : besideSecret.realm.root.parts = ["srv", "vol"] := by rfl
      have hways : before = [] ∨ ∃ t, before = "srv" :: t ∧ (t = [] ∨ t = ["vol"]) := by
        simpa [hparts, List.prefix_cons_iff] using hbefore
      rcases hways with rfl | ⟨_, rfl, rfl | rfl⟩ <;> exact absurd hlead (by decide)
    · exact absurd hin (by decide)
  exact (HostSystem.node?_remove _ _ l).trans (if_neg fun hsame => hne hsame.1)

/-- The volume is mounted and a file is written. The secret stays as it is, and without it the
answers are the same. -/
theorem never_leaves_root_besideSecret :
    let write : Operation Nat := File.write "/lfs/./a" [7] {}
    let p : Program (Except Error Nat) := (Program.call .mount .ret).bind fun _ => write.run
    let after := (p.run backend besideSecret).2.system
    (besideSecret.mounted = true ∧ besideSecret.IsFresh ∧
      write.run.Only (fun c => ¬c.Mounts) ∧ besideSecret.DiffersOutside besideNothing) ∧
    (besideSecret.realPath "/lfs/./a" = .ok (.ofText "/srv/vol/a") ∧
      besideSecret.StandsFor "/lfs/./a" (.ofText "/srv/vol/a")) ∧
    ((∀ real, ¬besideSecret.StandsFor "/lfs/../secret" real) ∧
      backend.answer (.stat "/lfs/../secret") besideSecret =
        (.error (.invalidPath "/lfs/../secret"), besideSecret)) ∧
    after.node? ["srv", "vol", "a"] = some (.file 1) ∧
    after.node? ["srv", "secret"] = some (.file 0) ∧ after.data 0 = [1, 2, 3] ∧
    besideSecret.realm.Spares (fun _ => False) besideSecret.system
      (write.run.run backend besideSecret).2.system ∧
    (p.run backend besideNothing).1 = (p.run backend besideSecret).1 := by
  intro write p after
  have hfresh : besideSecret.IsFresh := ⟨rfl, rfl⟩
  have hwrite : write.run.Only fun c => ¬c.Mounts :=
    Program.Only.mono (File.write_only _ _ _) fun c hc => hc.2
  have hstands : besideSecret.StandsFor "/lfs/./a" (.ofText "/srv/vol/a") :=
    hostPath?_eq_some.1 rfl
  have hrefused : ∀ real, ¬besideSecret.StandsFor "/lfs/../secret" real := by
    intro real hreal
    have hnone : besideSecret.hostPath? "/lfs/../secret" = none := rfl
    cases hnone.symm.trans (hostPath?_eq_some.2 hreal)
  obtain ⟨hpaths, hruns⟩ := never_leaves_root besideSecret
  obtain ⟨hall, hnone, -, hread⟩ := hruns hfresh
  have hspares := hall p
  have hout : ¬besideSecret.place <+: ["srv", "secret"] := by decide
  refine ⟨⟨rfl, hfresh, hwrite, differsOutside_besideNothing⟩,
    ⟨((hpaths rfl _).1 _).2 hstands, hstands⟩,
    ⟨hrefused, ((hpaths rfl _).2.2 hrefused).2 (.stat _) rfl⟩, ?_, ?_, ?_, hnone _ hwrite,
    hread _ differsOutside_besideNothing p⟩
  · decide +kernel
  · rcases hspares.node ["srv", "secret"] hout with hsame | ⟨-, hfree, -⟩
    · exact hsame
    · cases hfree
  · refine hspares.data 0 ?_
    rintro (hlength | ⟨l, hin, hfile⟩)
    · exact absurd hlength (by decide)
    · exact hout (eq_secret_of_file hfile ▸ hin)

end HostVolume
end FlashVolume

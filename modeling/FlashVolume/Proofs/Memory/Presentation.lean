import FlashVolume.Proofs.Memory.Children
import FlashVolume.Proofs.Storage.Presentation
/-!
# The map that a volume in memory shows

A mounted volume without faults shows the map behind it. The calls on files are those of
`Memory.Calls`, and what an open directory delivers is in `Memory.Children`; here are the other
calls on directories.
-/

namespace FlashVolume

namespace MemoryVolume

variable {v : MemoryVolume} {site : Site} {m : PathMap} {names : List String}

/-! ### Opening files -/

/-- Only a file is opened to read. -/
theorem open_other (hv : v.IsReady) {path : String}
    (hnode : ∀ data, v.pathMap path ≠ some (.file data)) :
    ∃ e, backend.answer (.open path .readOnly) v = (.error e, v) := by
  cases hpath : v.nodes[path]? with
  | none =>
    refine ⟨.notFound path, ?_⟩
    simp [backend, answer, MemoryVolume.open, whenMounted, hv.mounted, hpath, OpenMode.readOnly]
  | some node =>
    cases node with
    | directory => exact ⟨_, open_directory hv path .readOnly hpath⟩
    | file data => exact absurd hpath (hnode data)

/-! ### Making directories -/

/-- A directory is made at a free path below another. -/
theorem mkdir_free (hv : v.IsReady) {path : String} (hfree : v.pathMap path = none)
    (hparent : v.pathMap (Path.parent path) = some .directory) :
    ∃ v', backend.answer (.mkdir path) v = (.ok (), v') ∧ v'.IsReady ∧
      v'.pathMap = v.pathMap.update path (some .directory) := by
  have hcontains : v.nodes.contains path = false := by
    rw [Std.TreeMap.contains_eq_isSome_getElem?, show v.nodes[path]? = none from hfree]
    rfl
  have hcheck : v.checkParent path = .ok () := by
    rw [checkParent, show v.nodes[Path.parent path]? = some .directory from hparent]
  refine ⟨{ v with
      nodes := v.nodes.insert path .directory
      counters := { v.counters with mkdirs := v.counters.mkdirs + 1 } }, ?_,
    ⟨hv.mounted, hv.faults⟩, pathMap_insert rfl⟩
  simp [backend, answer, mkdir, whenMounted, hv.mounted, hcontains, hcheck]

/-- Elsewhere none is made. -/
theorem mkdir_taken (hv : v.IsReady) {path : String}
    (htaken : ¬(v.pathMap path = none ∧ v.pathMap (Path.parent path) = some .directory)) :
    ∃ e, backend.answer (.mkdir path) v = (.error e, v) := by
  cases hnode : v.nodes[path]? with
  | some node =>
    have hcontains : v.nodes.contains path = true := by
      rw [Std.TreeMap.contains_eq_isSome_getElem?, hnode]
      rfl
    exact ⟨_, by simp [backend, answer, mkdir, whenMounted, hv.mounted, hcontains]; rfl⟩
  | none =>
    have hcontains : v.nodes.contains path = false := by
      rw [Std.TreeMap.contains_eq_isSome_getElem?, hnode]
      rfl
    have hcheck : ∃ e, v.checkParent path = .error e := by
      rw [checkParent]
      cases hparent : v.nodes[Path.parent path]? with
      | none => exact ⟨_, rfl⟩
      | some node =>
        cases node with
        | file data => exact ⟨_, rfl⟩
        | directory => exact absurd ⟨hnode, hparent⟩ htaken
    obtain ⟨e, hcheck⟩ := hcheck
    exact ⟨e, by simp [backend, answer, mkdir, whenMounted, hv.mounted, hcontains, hcheck]⟩

/-! ### Listing directories -/

/-- The children of a directory are its entries. -/
theorem lists_children (hm : site.Fits v.pathMap) (h : site.Admits names) :
    site.Lists v.pathMap names ((v.children (site.path names)).map Prod.snd) := by
  have hmem : ∀ path entry, (path, entry) ∈ v.children (site.path names) ↔
      ∃ name node, path = site.path (names ++ [name]) ∧ site.Admits (names ++ [name]) ∧
        v.pathMap path = some node ∧ entry = node.toEntry name := by
    intro path entry
    rw [mem_children, Site.below_path h]
    constructor
    · rintro ⟨hpath, -, hsep, node, hnode, hentry⟩
      rw [Site.below_path h, ← hpath] at hnode
      rw [← Site.path_concat] at hpath
      subst hpath
      refine ⟨entry.name, node, rfl, ?_, hnode, hentry⟩
      exact hm.admits_of_child h hsep (by rw [hnode]; exact Option.some_ne_none _)
    · rintro ⟨name, node, rfl, hadmits, hnode, rfl⟩
      have hname := hadmits.isName name (by simp)
      rw [PathMap.IsChild, Node.toEntry_name, Site.below_path h, ← Site.path_concat]
      exact ⟨rfl, hname.ne_empty, hname.notMem, node, hnode, rfl⟩
  constructor
  · -- Two children with the same entry have the same name, so they have the same path.
    rw [List.nodup_iff_pairwise_ne, List.pairwise_map]
    refine (pairwise_children _ v).imp_of_mem ?_
    rintro ⟨path, entry⟩ ⟨path', entry'⟩ hchild hchild' hlt heq
    obtain ⟨name, node, rfl, -, -, rfl⟩ := (hmem _ _).1 hchild
    obtain ⟨name', node', rfl, -, -, rfl⟩ := (hmem _ _).1 hchild'
    have hname : name = name' := by
      have hnames := congrArg Entry.name heq
      rwa [Node.toEntry_name, Node.toEntry_name] at hnames
    subst hname
    simp at hlt
  · intro entry
    rw [List.mem_map]
    constructor
    · rintro ⟨⟨path, entry⟩, hchild, rfl⟩
      obtain ⟨name, node, rfl, hadmits, hnode, rfl⟩ := (hmem _ _).1 hchild
      exact ⟨name, node, hadmits, hnode, rfl⟩
    · rintro ⟨name, node, hadmits, hnode, rfl⟩
      exact ⟨(_, _), (hmem _ _).2 ⟨name, node, rfl, hadmits, hnode, rfl⟩, rfl⟩

/-- The volume shows the map. -/
structure Shows (site : Site) (v : MemoryVolume) (m : PathMap) : Prop where
  ready : v.IsReady
  map : v.pathMap = m
  fits : site.Fits m

/-- Only the nodes count for the map that is shown. -/
theorem Shows.of_nodes (hv : Shows site v m) {w : MemoryVolume} (hw : w.IsReady)
    (hnodes : w.nodes = v.nodes) : Shows site w m := by
  refine ⟨hw, ?_, hv.fits⟩
  rw [← hv.map]
  funext path
  rw [pathMap, pathMap, hnodes]

/-- What is no directory cannot be opened as one. -/
theorem opendir_other (hv : v.IsReady) {path : String} (hnode : v.pathMap path ≠ some .directory) :
    ∃ e v', backend.answer (.opendir path) v = (.error e, v') ∧ v'.IsReady ∧
      v'.pathMap = v.pathMap := by
  have hmap := pathMap_beforeOpendir hv
  rw [← hmap] at hnode
  cases hpath : v.beforeOpendir.nodes[path]? with
  | none =>
    refine ⟨.notFound path, v.beforeOpendir, ?_, ⟨hv.mounted, hv.faults⟩, hmap⟩
    simp [backend, answer, opendir, whenMounted, hv.mounted, hpath]
  | some node =>
    cases node with
    | directory => exact absurd hpath hnode
    | file data =>
      refine ⟨.notADirectory path, v.beforeOpendir, ?_, ⟨hv.mounted, hv.faults⟩, hmap⟩
      simp [backend, answer, opendir, whenMounted, hv.mounted, hpath]

/-! ### The presentation -/

/-- The volume shows the map, and a handle is open on a file. -/
structure ShowsWorking (site : Site) (v : MemoryVolume) (m : PathMap) (file : FileHandle)
    (f : OpenFile) (data : Bytes) : Prop where
  working : v.Working file f data
  map : v.pathMap = m
  fits : site.Fits m

/-- **A volume in memory shows the map behind it.** -/
def presentation (site : Site) : Presentation site backend where
  Shows := Shows site
  Working := ShowsWorking site
  fits hv := hv.fits
  shows_of_working hw := ⟨hw.working.ready, hw.map, hw.fits⟩
  stat_some := by
    rintro v m names node ⟨hready, rfl, hfits⟩ - hnode
    exact ⟨v, by rw [stat_mounted hready.mounted, hnode], hready, rfl, hfits⟩
  stat_none := by
    rintro v m names ⟨hready, rfl, hfits⟩ - hnode
    exact ⟨_, v, by rw [stat_mounted hready.mounted, hnode], hready, rfl, hfits⟩
  mkdir_free := by
    rintro v m names ⟨hready, rfl, hfits⟩ h hfree hparent
    obtain ⟨v', hanswer, hready', hmap⟩ := mkdir_free hready hfree hparent
    exact ⟨v', hanswer, hready', hmap, hfits.create h _ hfree hparent⟩
  mkdir_taken := by
    rintro v m names ⟨hready, rfl, hfits⟩ h htaken
    obtain ⟨e, hanswer⟩ := mkdir_taken hready htaken
    exact ⟨e, v, hanswer, hready, rfl, hfits⟩
  unlink_free := by
    rintro v m names node ⟨hready, rfl, hfits⟩ h hnode hempty
    obtain ⟨v', hanswer, hready', hmap⟩ := unlink_free hready hnode hempty
    exact ⟨v', hanswer, hready', hmap, hfits.remove h hnode hempty⟩
  unlink_missing := by
    rintro v m names ⟨hready, rfl, hfits⟩ h hnode
    obtain ⟨v', hanswer, hready', hmap⟩ := unlink_missing hready hnode
    exact ⟨_, v', hanswer, hready', hmap, hfits⟩
  unlink_occupied := by
    rintro v m names ⟨hready, rfl, hfits⟩ h hnode hoccupied
    obtain ⟨v', hanswer, hready', hmap⟩ := unlink_occupied hready hnode hoccupied
    exact ⟨_, v', hanswer, hready', hmap, hfits⟩
  open_file := by
    rintro v m names data ⟨hready, rfl, hfits⟩ h hnode
    obtain ⟨file, v', hanswer, hworking, hmap⟩ := open_file hready _ .readOnly hnode
    exact ⟨file, v', hanswer, hworking, hmap, hfits⟩
  open_other := by
    rintro v m names ⟨hready, rfl, hfits⟩ h hnode
    obtain ⟨e, hanswer⟩ := open_other hready hnode
    exact ⟨e, v, hanswer, hready, rfl, hfits⟩
  open_creating := by
    rintro v m names mode data ⟨hready, rfl, hfits⟩ h hmode hbefore
    have hopening := open_creating hready (site.path names) mode (OpenMode.create_of_writing hmode)
    rw [hbefore] at hopening
    obtain ⟨file, v', hanswer, hworking, hmap⟩ := hopening
    exact ⟨file, v', hanswer, hworking, hmap, hfits.beforeWrite h hbefore⟩
  open_refused := by
    rintro v m names mode e ⟨hready, rfl, hfits⟩ h hmode hbefore
    have hopening := open_creating hready (site.path names) mode (OpenMode.create_of_writing hmode)
    rw [hbefore] at hopening
    obtain ⟨e', hanswer, -⟩ := hopening
    exact ⟨e', v, hanswer, hready, rfl, hfits⟩
  read := by
    rintro v m file f data length ⟨hworking, rfl, hfits⟩ hmode -
    obtain ⟨v', hanswer, hworking', hmap⟩ := hworking.read (by rw [hmode]; rfl) length
    exact ⟨v', hanswer, hworking', hmap, hfits⟩
  seek := by
    rintro v m file f data offset ⟨hworking, rfl, hfits⟩ - -
    obtain ⟨v', hanswer, hworking', hmap⟩ := hworking.seek offset
    exact ⟨v', hanswer, hworking', hmap, hfits⟩
  truncate := by
    rintro v m file f data length ⟨hworking, rfl, hfits⟩ - -
    obtain ⟨v', hanswer, hworking', hmap⟩ := hworking.truncate length
    exact ⟨v', hanswer, hworking', hmap, hfits.alter_file _ hworking.node⟩
  write := by
    rintro v m file f data bytes ⟨hworking, rfl, hfits⟩ hmode hposition -
    obtain ⟨v', hanswer, hready', hmap⟩ := hworking.write hmode bytes
    have hstart : (if f.mode.append then data.length else f.position) =
        if f.mode.append then data.length else 0 := by
      rcases hposition with hposition | happend
      · rw [hposition]
      · rw [if_pos happend, if_pos happend]
    rw [hstart] at hmap
    exact ⟨v', hanswer, hready', hmap, hfits.alter_file _ hworking.node⟩
  close := by
    rintro v m file ⟨hready, rfl, hfits⟩
    obtain ⟨v', hanswer, hready', hmap⟩ := close_ready hready file
    exact ⟨v', hanswer, hready', hmap, hfits⟩
  opendir := by
    rintro v m names ⟨hready, rfl, hfits⟩ h hnode
    have hserves := serves_children v hnode
    obtain ⟨dir, v', hanswer, hdelivers⟩ := hserves.opendir v ⟨hready, rfl⟩
    have hshows : Shows site v v.pathMap := ⟨hready, rfl, hfits⟩
    refine ⟨dir, v', _, hanswer, lists_children hfits h, hdelivers.mono ?_⟩
    exact fun w hw => hshows.of_nodes hw.1 hw.2
  opendir_other := by
    rintro v m names ⟨hready, rfl, hfits⟩ h hnode
    obtain ⟨e, v', hanswer, hready', hmap⟩ := opendir_other hready hnode
    exact ⟨e, v', hanswer, hready', hmap, hfits⟩
  closedir := by
    rintro v m dir ⟨hready, rfl, hfits⟩
    exact ⟨⟨hready.mounted, hready.faults⟩, rfl, hfits⟩

end MemoryVolume
end FlashVolume

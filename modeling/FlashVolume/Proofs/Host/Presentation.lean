import FlashVolume.Proofs.Host.Calls
import FlashVolume.Proofs.Storage.Presentation
/-!
# The map that a volume on the host shows

A mounted volume on the host shows the map that the host mirrors below the root. A path of the map
stands for a path of the host, and the calls of the host on that path are those of `Host.Calls`. An
open directory takes its names at the first read; nothing is created or removed before the last one,
so it delivers the entries that it has when it is opened.
-/

namespace FlashVolume

namespace HostVolume

variable {v : HostVolume} {site : Site} {m : PathMap} {names : List String} {α : Type}

/-! ### Calls of the host -/

/-- A call the host answers is answered by the volume. -/
theorem onHost_ok {call : HostSystem → HostSystem.Answer α} {a : α} {h : HostSystem}
    (hcall : call v.system = (.ok a, h)) : v.onHost call = (.ok a, { v with system := h }) := by
  rw [onHost, hcall]
  rfl

/-- A call the host refuses leaves the volume as it was. -/
theorem onHost_error {call : HostSystem → HostSystem.Answer α}
    (hcall : ∃ e, call v.system = (.error e, v.system)) : ∃ e, v.onHost call = (.error e, v) := by
  obtain ⟨e, hcall⟩ := hcall
  exact ⟨StorageError.ofSystem e, by rw [onHost, hcall]; rfl⟩

/-- The modes that write open a file that can be written. -/
theorem isWritable_of_writing {mode : OpenMode} (h : mode = .replacing ∨ mode = .appending) :
    HostSystem.isWritable mode = true := by
  rw [HostSystem.isWritable, OpenMode.write_of_writing h, Bool.true_or]

/-- The volume shows the map. -/
structure Shows (site : Site) (v : HostVolume) (m : PathMap) : Prop where
  mounted : v.mounted = true
  mountPoint : v.mountPoint = site.config.mountPoint
  root : v.root = site.root
  mirrors : v.system.Mirrors site m

/-- The volume shows the map, and a handle is open on a file. -/
structure ShowsWorking (site : Site) (v : HostVolume) (m : PathMap) (file : FileHandle)
    (f : OpenFile) (data : Bytes) : Prop where
  shows : v.Shows site m
  isOpen : v.system.IsOpen site m file.index f data

namespace Shows

variable (hv : v.Shows site m)
include hv

/-- Only the host below the root counts for the map. -/
theorem of_mirrors {h : HostSystem} {m' : PathMap} (hm : h.Mirrors site m') :
    Shows site { v with system := h } m' :=
  ⟨hv.mounted, hv.mountPoint, hv.root, hm⟩

/-- A volume shows at work what the host holds open. -/
theorem of_isOpen {h : HostSystem} {m' : PathMap} {file : FileHandle} {f : OpenFile} {data : Bytes}
    (ho : h.IsOpen site m' file.index f data) :
    ShowsWorking site { v with system := h } m' file f data :=
  ⟨hv.of_mirrors ho.mirrors, ho⟩

/-- A path of names stands for the names below the root. -/
theorem onPath (hnames : site.Admits names) (call : HostPath → HostVolume → Answer α) :
    v.onPath (site.path names) call = call (site.root.pushAll names) v := by
  rw [HostVolume.onPath, realPath, hv.mounted, Site.hostPath?_path hv.mountPoint hv.root hnames]
  rfl

/-! ### Entries and directories -/

/-- What the map holds is shown. -/
theorem stat_some (hnames : site.Admits names) {node : Node}
    (hnode : m (site.path names) = some node) :
    backend.answer (.stat (site.path names)) v =
      (.ok (node.toEntry (Path.fileName (site.path names))), v) := by
  obtain ⟨node', hlookup, rfl⟩ := hv.mirrors.lookup_some hnames hnode
  simp only [backend, answer, stat, hv.onPath hnames]
  rw [onHost_ok (by rw [hlookup]; rfl), HostSystem.entry_eq]

/-- A free path is not found. -/
theorem stat_none (hnames : site.Admits names) (hfree : m (site.path names) = none) :
    ∃ e, backend.answer (.stat (site.path names)) v = (.error e, v) := by
  obtain ⟨e, hlookup⟩ := hv.mirrors.lookup_none hnames hfree
  simp only [backend, answer, stat, hv.onPath hnames]
  exact onHost_error ⟨e, by rw [hlookup]; rfl⟩

/-- What has nothing below it is removed. -/
theorem unlink_free (hnames : site.Admits names) {node : Node}
    (hnode : m (site.path names) = some node)
    (hempty : node = .directory → ¬m.Occupied (site.path names)) :
    backend.Grants (Shows site) (.unlink (site.path names)) () v
      (m.update (site.path names) none) := by
  have hdir := hv.mirrors.isDirectory_iff hnames
  rw [hnode] at hdir
  cases node with
  | directory =>
    obtain ⟨h, hremove, hm⟩ := hv.mirrors.removeDirectory_free hnames hnode (hempty rfl)
    refine ⟨_, ?_, hv.of_mirrors hm⟩
    simp only [backend, answer, unlink, hv.onPath hnames, hdir.2 rfl, if_true]
    exact onHost_ok hremove
  | file data =>
    obtain ⟨h, hremove, hm⟩ := hv.mirrors.removeFile_file hnames hnode
    refine ⟨_, ?_, hv.of_mirrors hm⟩
    have hother : some (Node.file data) ≠ some .directory := by simp
    simp only [backend, answer, unlink, hv.onPath hnames, mt hdir.1 hother]
    exact onHost_ok hremove

/-- What is not there cannot be removed. -/
theorem unlink_missing (hnames : site.Admits names) (hfree : m (site.path names) = none) :
    ∃ e, backend.answer (.unlink (site.path names)) v = (.error e, v) := by
  have hdir := hv.mirrors.isDirectory_iff hnames
  rw [hfree] at hdir
  simp only [backend, answer, unlink, hv.onPath hnames, mt hdir.1 nofun]
  exact onHost_error (hv.mirrors.removeFile_missing hnames hfree)

/-- What holds something cannot be removed. -/
theorem unlink_occupied (hnames : site.Admits names)
    (hnode : m (site.path names) = some .directory) (hoccupied : m.Occupied (site.path names)) :
    ∃ e, backend.answer (.unlink (site.path names)) v = (.error e, v) := by
  have hdir := (hv.mirrors.isDirectory_iff hnames).2 hnode
  simp only [backend, answer, unlink, hv.onPath hnames, hdir, if_true]
  exact onHost_error (hv.mirrors.removeDirectory_occupied hnames hnode hoccupied)

/-! ### Files -/

/-- A directory is no file. -/
theorem open_directory (hnames : site.Admits names) (mode : OpenMode)
    (hnode : m (site.path names) = some .directory) :
    backend.answer (.open (site.path names) mode) v =
      (.error (.isADirectory (site.path names)), v) := by
  have hdir := (hv.mirrors.isDirectory_iff hnames).2 hnode
  simp only [backend, answer, HostVolume.open, hv.onPath hnames, hdir, if_true]

/-- Elsewhere opening is left to the host. -/
theorem open_eq (hnames : site.Admits names) (mode : OpenMode)
    (hnode : m (site.path names) ≠ some .directory) :
    backend.answer (.open (site.path names) mode) v =
      ((v.onHost (HostSystem.openFile (site.root.pushAll names) mode)).1.map FileHandle.mk,
        (v.onHost (HostSystem.openFile (site.root.pushAll names) mode)).2) := by
  have hdir := mt (hv.mirrors.isDirectory_iff hnames).1 hnode
  simp only [backend, answer, HostVolume.open, hv.onPath hnames, hdir, if_false, Bool.false_eq_true]

/-- A file is opened if the host opens it. -/
theorem open_ok (hnames : site.Admits names) {mode : OpenMode}
    (hnode : m (site.path names) ≠ some .directory) {file : Nat} {h : HostSystem}
    (hopen : v.system.openFile (site.root.pushAll names) mode = (.ok file, h)) :
    backend.answer (.open (site.path names) mode) v = (.ok ⟨file⟩, { v with system := h }) := by
  rw [hv.open_eq hnames mode hnode, onHost_ok hopen]
  rfl

/-- What is no file and cannot be created is not opened. -/
theorem open_other (hnames : site.Admits names) (mode : OpenMode)
    (hmode : HostSystem.isWritable mode = true ∨ mode.read = true ∧ mode.create = false)
    (hfile : ∀ data, m (site.path names) ≠ some (.file data))
    (hcreate : mode.create = true → m (site.path names) = none →
      m (Path.parent (site.path names)) ≠ some .directory) :
    ∃ e, backend.answer (.open (site.path names) mode) v = (.error e, v) := by
  cases hnode : m (site.path names) with
  | some node =>
    cases node with
    | directory => exact ⟨_, hv.open_directory hnames mode hnode⟩
    | file data => exact absurd hnode (hfile data)
  | none =>
    obtain ⟨e, herror⟩ := onHost_error
      (hv.mirrors.openFile_missing hnames mode hnode hmode fun h => hcreate h hnode)
    exact ⟨e, by rw [hv.open_eq hnames mode (by rw [hnode]; nofun), herror]; rfl⟩

/-- The modes that files are written with keep a file that is there and create one that is not. -/
theorem open_creating (hnames : site.Admits names) {mode : OpenMode}
    (hmode : mode = .replacing ∨ mode = .appending) {data : Bytes}
    (hbefore : m.beforeWrite (site.path names) = .ok data) :
    ∃ file v', backend.answer (.open (site.path names) mode) v = (.ok file, v') ∧
      ShowsWorking site v' (m.update (site.path names) (some (.file data))) file
        ⟨site.path names, if mode.append then data.length else 0, mode⟩ data := by
  have hwritable := isWritable_of_writing hmode
  have hposition : mode.append = false → (if mode.append then data.length else 0) = 0 := by
    intro happend
    simp [happend]
  rcases PathMap.beforeWrite_eq_ok.1 hbefore with hfile | ⟨hfree, hparent, rfl⟩
  · obtain ⟨file, h, hopen, ho⟩ :=
      hv.mirrors.openFile_file hnames mode hfile (.inl hwritable) hposition
    rw [PathMap.update_eq_self hfile]
    exact ⟨⟨file⟩, _, hv.open_ok hnames (by rw [hfile]; nofun) hopen, hv.of_isOpen ho⟩
  · obtain ⟨file, h, hopen, ho⟩ := hv.mirrors.openFile_free hnames mode hfree hparent hwritable
      (OpenMode.create_of_writing hmode) hposition
    exact ⟨⟨file⟩, _, hv.open_ok hnames (by rw [hfree]; nofun) hopen, hv.of_isOpen ho⟩

/-! ### Listing directories -/

/-- **An open directory delivers the names that are left.** -/
theorem delivers_names {dir : DirHandle} {d : HostDirectory}
    (hdir : v.system.directories.get? dir.index = some d)
    (hlocation : d.location = site.location ++ names) (hstands : v.system.stands d = true)
    {left : List String} (hleft : v.system.namesLeft d = left)
    (hnames : ∀ name ∈ left, site.Admits (names ++ [name]) ∧
      m (site.path (names ++ [name])) ≠ none) :
    backend.Delivers (Shows site · m) dir
      (left.filterMap fun name => (m (site.path (names ++ [name]))).map (Node.toEntry name)) v := by
  -- By induction on the names that are left; a read leaves the nodes of the host as they are.
  induction left generalizing v d with
  | nil =>
    refine ⟨{ v with system := v.system.setNamesLeft dir.index d [] }, ?_,
      hv.of_mirrors (hv.mirrors.of_eq rfl rfl rfl)⟩
    have hread : v.system.nextEntry dir.index =
        (.ok .endMark, v.system.setNamesLeft dir.index d []) := by
      simp only [HostSystem.nextEntry, hdir, hleft]
    exact onHost_ok hread
  | cons name rest ih =>
    obtain ⟨⟨hadmits, hpresent⟩, hrest⟩ := List.forall_mem_cons.1 hnames
    obtain ⟨node, hnode⟩ := Option.ne_none_iff_exists'.1 hpresent
    obtain ⟨node', hfound, hview, -⟩ := hv.mirrors.find_some hadmits hnode
    rw [← List.append_assoc, ← hlocation] at hfound
    rw [List.filterMap_cons_some (by rw [hnode]; rfl)]
    have hv' : Shows site { v with system := v.system.setNamesLeft dir.index d rest } m :=
      hv.of_mirrors (hv.mirrors.of_eq rfl rfl rfl)
    refine ⟨?_, { v with system := v.system.setNamesLeft dir.index d rest }, ?_, hv', ?_⟩
    · have hname := (hadmits.isName name (by simp)).ne_empty
      simpa [Entry.isEnd] using hname
    · have hread : v.system.nextEntry dir.index =
          (.ok (node.toEntry name), v.system.setNamesLeft dir.index d rest) := by
        simp only [HostSystem.nextEntry, hdir, hleft, hstands, if_true, hfound]
        rw [HostSystem.entry_eq, hview]
      exact onHost_ok hread
    · exact ih hv' (Handles.get?_set_self hdir) hlocation hstands rfl hrest

omit hv in
/-- The names of a directory are those of its entries. -/
theorem lists_names (hm : v.system.Mirrors site m) :
    site.Lists m names ((v.system.names (site.location ++ names)).filterMap fun name =>
      (m (site.path (names ++ [name]))).map (Node.toEntry name)) := by
  constructor
  · rw [List.nodup_iff_pairwise_ne, List.pairwise_filterMap]
    refine (HostSystem.nodup_names _ _).imp ?_
    intro name name' hne entry hentry entry' hentry' heq
    obtain ⟨node, -, rfl⟩ := Option.map_eq_some_iff.1 hentry
    obtain ⟨node', -, rfl⟩ := Option.map_eq_some_iff.1 hentry'
    have hname := congrArg Entry.name heq
    rw [Node.toEntry_name, Node.toEntry_name] at hname
    exact hne hname
  · intro entry
    rw [List.mem_filterMap]
    constructor
    · rintro ⟨name, hname, hentry⟩
      obtain ⟨node, hnode, rfl⟩ := Option.map_eq_some_iff.1 hentry
      exact ⟨name, node, (hm.mem_names_iff.1 hname).1, hnode, rfl⟩
    · rintro ⟨name, node, hadmits, hnode, rfl⟩
      refine ⟨name, hm.mem_names_iff.2 ⟨hadmits, ?_⟩, by rw [hnode]; rfl⟩
      rw [hnode]
      exact Option.some_ne_none _

/-- A directory is opened with all of its names left. -/
theorem opendir_directory (hnames : site.Admits names)
    (hnode : m (site.path names) = some .directory) :
    ∃ dir v' entries, backend.answer (.opendir (site.path names)) v = (.ok dir, v') ∧
      site.Lists m names entries ∧ backend.Delivers (Shows site · m) dir entries v' := by
  obtain ⟨node', hfound, hview, hfind⟩ := hv.mirrors.find_some hnames hnode
  cases node' with
  | file number => cases hview
  | directory number =>
    let d : HostDirectory := ⟨site.location ++ names, number, none⟩
    let opened : HostVolume := { v with
      system := { v.system with directories := v.system.directories.add d } }
    have hv' : opened.Shows site m := hv.of_mirrors (hv.mirrors.of_eq rfl rfl rfl)
    have hfile : ¬v.system.isFile (site.root.pushAll names) = true := by
      rw [hv.mirrors.isFile_iff hnames, hnode]
      nofun
    have hstands : opened.system.stands d = true := decide_eq_true hfound
    refine ⟨⟨v.system.directories.next⟩, opened, _, ?_, lists_names hv'.mirrors,
      hv'.delivers_names (Handles.get?_add_next _ _) rfl hstands ?_
        fun name hname => hv'.mirrors.mem_names_iff.1 hname⟩
    · simp only [backend, answer, opendir, hv.onPath hnames, hfile]
      rw [onHost_ok (by rw [HostSystem.openDirectory, hfind])]
      rfl
    · simp [HostSystem.namesLeft, d, hstands]

/-- What is no directory is not opened as one. -/
theorem opendir_other (hnames : site.Admits names)
    (hnode : m (site.path names) ≠ some .directory) :
    ∃ e, backend.answer (.opendir (site.path names)) v = (.error e, v) := by
  by_cases hfile : v.system.isFile (site.root.pushAll names) = true
  · refine ⟨.notADirectory (site.path names), ?_⟩
    simp only [backend, answer, opendir, hv.onPath hnames, hfile, if_true]
  · have hfree : m (site.path names) = none := by
      rw [hv.mirrors.isFile_iff hnames] at hfile
      cases hpath : m (site.path names) with
      | none => rfl
      | some node =>
        cases node with
        | directory => exact absurd hpath hnode
        | file data => exact absurd ⟨data, hpath⟩ hfile
    obtain ⟨e, hfind⟩ := hv.mirrors.find_none hnames hfree
    obtain ⟨e', herror⟩ : ∃ e', v.onHost
        (HostSystem.openDirectory (site.root.pushAll names)) = (.error e', v) :=
      onHost_error ⟨e, by rw [HostSystem.openDirectory, hfind]⟩
    refine ⟨e', ?_⟩
    simp only [backend, answer, opendir, hv.onPath hnames, hfile]
    rw [herror]
    rfl

end Shows

/-- **A volume on the host shows what is below its root.** -/
def presentation (site : Site) : Presentation site backend where
  Shows := Shows site
  Working := ShowsWorking site
  fits hv := hv.mirrors.fits
  shows_of_working hw := hw.shows
  stat_some hv hnames hnode := ⟨_, hv.stat_some hnames hnode, hv⟩
  stat_none := by
    intro v m names hv hnames hfree
    obtain ⟨e, herror⟩ := hv.stat_none hnames hfree
    exact ⟨e, v, herror, hv⟩
  mkdir_free := by
    intro v m names hv hnames hfree hparent
    obtain ⟨h, hcreate, hm⟩ := hv.mirrors.createDirectory_free hnames hfree hparent
    refine ⟨{ v with system := h }, ?_, hv.of_mirrors hm⟩
    simp only [backend, answer, mkdir, hv.onPath hnames]
    rw [onHost_ok hcreate]
  mkdir_taken := by
    intro v m names hv hnames htaken
    obtain ⟨e, herror⟩ := onHost_error (hv.mirrors.createDirectory_taken hnames htaken)
    refine ⟨e, v, ?_, hv⟩
    simp only [backend, answer, mkdir, hv.onPath hnames]
    rw [herror]
  unlink_free hv hnames hnode hempty := hv.unlink_free hnames hnode hempty
  unlink_missing := by
    intro v m names hv hnames hfree
    obtain ⟨e, herror⟩ := hv.unlink_missing hnames hfree
    exact ⟨e, v, herror, hv⟩
  unlink_occupied := by
    intro v m names hv hnames hnode hoccupied
    obtain ⟨e, herror⟩ := hv.unlink_occupied hnames hnode hoccupied
    exact ⟨e, v, herror, hv⟩
  open_file := by
    intro v m names data hv hnames hnode
    obtain ⟨file, h, hopen, ho⟩ := hv.mirrors.openFile_file hnames .readOnly hnode
      (.inr ⟨rfl, rfl⟩) fun _ => rfl
    exact ⟨⟨file⟩, _, hv.open_ok hnames (by rw [hnode]; nofun) hopen, hv.of_isOpen ho⟩
  open_other := by
    intro v m names hv hnames hfile
    obtain ⟨e, herror⟩ := hv.open_other hnames .readOnly (.inr ⟨rfl, rfl⟩) hfile nofun
    exact ⟨e, v, herror, hv⟩
  open_creating hv hnames hmode hbefore := hv.open_creating hnames hmode hbefore
  open_refused := by
    intro v m names mode e hv hnames hmode hbefore
    have hwritable := isWritable_of_writing hmode
    have hnot : ∀ data, m.beforeWrite (site.path names) ≠ .ok data := by
      rw [hbefore]
      nofun
    obtain ⟨e', herror⟩ := hv.open_other hnames mode (.inl hwritable)
      (fun data hfile => hnot data (PathMap.beforeWrite_eq_ok.2 (.inl hfile)))
      fun _ hfree hparent => hnot [] (PathMap.beforeWrite_eq_ok.2 (.inr ⟨hfree, hparent, rfl⟩))
    exact ⟨e', v, herror, hv⟩
  read := by
    intro v m file f data length hw hmode hend
    obtain ⟨h, hread, ho⟩ := hw.isOpen.read hmode hend
    exact ⟨_, onHost_ok hread, hw.shows.of_isOpen ho⟩
  seek := by
    intro v m file f data offset hw hmode hoffset
    obtain ⟨h, hseek, ho⟩ := hw.isOpen.seek hmode hoffset
    exact ⟨_, onHost_ok hseek, hw.shows.of_isOpen ho⟩
  truncate := by
    intro v m file f data length hw hmode hlength
    obtain ⟨h, htruncate, ho⟩ := hw.isOpen.truncate hmode hlength
    exact ⟨_, onHost_ok htruncate, hw.shows.of_isOpen ho⟩
  write := by
    intro v m file f data bytes hw hmode hstart hlength
    obtain ⟨h, hwrite, hm⟩ := hw.isOpen.write hmode hstart hlength
    exact ⟨_, onHost_ok hwrite, hw.shows.of_mirrors hm⟩
  close := by
    intro v m file hv
    have hclose : v.system.closeFile file.index = (.ok (), _) := rfl
    exact ⟨_, onHost_ok hclose, hv.of_mirrors (hv.mirrors.of_eq rfl rfl rfl)⟩
  opendir hv hnames hnode := hv.opendir_directory hnames hnode
  opendir_other := by
    intro v m names hv hnames hnode
    obtain ⟨e, herror⟩ := hv.opendir_other hnames hnode
    exact ⟨e, v, herror, hv⟩
  closedir := by
    intro v m dir hv
    exact hv.of_mirrors (hv.mirrors.of_eq rfl rfl rfl)

end HostVolume
end FlashVolume

import FlashVolume.Proofs.Host.Mirrors
/-!
# Calls of a host that mirrors a map

What the calls of the host answer at the path of names, in terms of the map that it mirrors. A call
succeeds if the map allows it, and then the host mirrors the map that it leads to; one that fails
leaves the host as it is.

`IsOpen` says that a handle is open on a file: the state between `openFile` and `closeFile`.
-/

namespace FlashVolume

namespace HostSystem

variable {h : HostSystem} {path : HostPath} {location : List String}

/-- The entry the host shows is the entry of what a site sees there. -/
theorem entry_eq (h : HostSystem) (name : String) (node : HostNode) :
    h.entry name node = (h.view node).toEntry name := by
  cases node <;> rfl

/-- A path that is located can be opened, depending on what stands there. -/
theorem openFile_located (hl : h.locate path = .ok location)
    (hopen : path.endsInSeparator = false) {mode : OpenMode}
    (hmode : isWritable mode = true ∨ mode.read = true ∧ mode.create = false) :
    h.openFile path mode =
      match h.node? location with
      | some (.directory _) => (.error (.os Errno.isDirectory), h)
      | some (.file number) => h.giveFile number mode
      | none =>
        if mode.create then (h.createFile location).2.giveFile (h.createFile location).1 mode
        else (.error (.os Errno.noEntry), h) := by
  have hnul : ¬path.hasNul = true := by simp [(locate_ok hl).1]
  have hcreate : ¬(mode.create && !isWritable mode) = true := by
    rcases hmode with hmode | ⟨-, hmode⟩ <;> simp [hmode]
  have haccess : ¬(!mode.read && !isWritable mode) = true := by
    rcases hmode with hmode | ⟨hmode, -⟩ <;> simp [hmode]
  have hclosed : ¬(mode.create && path.endsInSeparator) = true := by simp [hopen]
  have hfile : ¬path.endsInSeparator = true := by simp [hopen]
  rw [openFile, if_neg hnul, if_neg hcreate, if_neg haccess, hl]
  refine (if_neg hclosed).trans ?_
  cases h.node? location with
  | none => rfl
  | some node =>
    cases node with
    | directory number => rfl
    | file number => exact if_neg hfile

/-- A path that is not located cannot be opened. -/
theorem openFile_not_located {e : SystemError} (hl : h.locate path = .error e) (mode : OpenMode) :
    ∃ e', h.openFile path mode = (.error e', h) := by
  simp only [openFile, hl]
  split
  · exact ⟨_, rfl⟩
  · split
    · exact ⟨_, rfl⟩
    · split <;> exact ⟨_, rfl⟩

/-- The name that a location has in a directory. -/
theorem name_eq_some {key : List String} {name : String} :
    (match key.getLast? with
      | some name => if key.dropLast = location then some name else none
      | none => none) = some name ↔ key = location ++ [name] := by
  cases key using List.reverseRecOn with
  | nil => simp
  | append_singleton first last =>
    by_cases hfirst : first = location <;> simp [hfirst]

/-- The names below a location are those that lead to a node. -/
theorem mem_childNames {name : String} :
    name ∈ h.childNames location ↔ h.node? (location ++ [name]) ≠ none := by
  have hnode : h.node? (location ++ [name]) = h.nodes[location ++ [name]]? := by
    simp [node?]
  rw [hnode, ← Option.isSome_iff_ne_none, ← Std.TreeMap.mem_iff_isSome_getElem?,
    ← Std.TreeMap.mem_keys, childNames, List.mem_filterMap]
  constructor
  · rintro ⟨key, hkey, hname⟩
    rwa [← name_eq_some.1 hname]
  · intro hkey
    exact ⟨_, hkey, name_eq_some.2 rfl⟩

/-- No name is shown twice below one location. -/
theorem nodup_childNames (h : HostSystem) (location : List String) :
    (h.childNames location).Nodup := by
  rw [childNames, List.nodup_iff_pairwise_ne, List.pairwise_filterMap]
  refine Std.TreeMap.distinct_keys.imp ?_
  intro key key' hkeys name hname name' hname' heq
  rw [name_eq_some.1 hname, name_eq_some.1 hname', heq] at hkeys
  simp at hkeys

/-- A directory contains what stands right below it, whatever the order is. -/
theorem mem_names {name : String} :
    name ∈ h.names location ↔ h.node? (location ++ [name]) ≠ none :=
  (h.traits.arrange_perm _ _).mem_iff.trans mem_childNames

/-- No name is in a directory twice. -/
theorem nodup_names (h : HostSystem) (location : List String) : (h.names location).Nodup :=
  (h.traits.arrange_perm _ _).nodup_iff.2 (nodup_childNames h location)

namespace Mirrors

variable {site : Site} {m : PathMap} {names : List String} (hm : h.Mirrors site m)
  (hnames : site.Admits names)
include hm hnames

/-! ### Entries -/

/-- What a site holds at a path, the host finds there. -/
theorem lookup_some {node : Node} (hnode : m (site.path names) = some node) :
    ∃ node', h.lookup (site.root.pushAll names) = .ok node' ∧ h.view node' = node := by
  obtain ⟨node', -, hview, hfind⟩ := hm.find_some hnames hnode
  exact ⟨node', by rw [lookup, hfind]; rfl, hview⟩

/-- What a site does not hold, the host does not find. -/
theorem lookup_none (hnode : m (site.path names) = none) :
    ∃ e, h.lookup (site.root.pushAll names) = .error e := by
  obtain ⟨e, hfind⟩ := hm.find_none hnames hnode
  exact ⟨e, by rw [lookup, hfind]; rfl⟩

/-- The host sees a directory where the map has one. -/
theorem isDirectory_iff :
    h.isDirectory (site.root.pushAll names) = true ↔ m (site.path names) = some .directory := by
  cases hnode : m (site.path names) with
  | none =>
    obtain ⟨e, hlookup⟩ := hm.lookup_none hnames hnode
    simp [isDirectory, hlookup]
  | some node =>
    obtain ⟨node', hlookup, rfl⟩ := hm.lookup_some hnames hnode
    cases node' <;> simp [isDirectory, hlookup, view]

/-- The host sees a file where the map has one. -/
theorem isFile_iff : h.isFile (site.root.pushAll names) = true ↔
    ∃ data, m (site.path names) = some (.file data) := by
  cases hnode : m (site.path names) with
  | none =>
    obtain ⟨e, hlookup⟩ := hm.lookup_none hnames hnode
    simp [isFile, hlookup]
  | some node =>
    obtain ⟨node', hlookup, rfl⟩ := hm.lookup_some hnames hnode
    cases node' <;> simp [isFile, hlookup, view]

/-- The location of an entry of the map. -/
theorem locate_some {node : Node} (hnode : m (site.path names) = some node) :
    h.locate (site.root.pushAll names) = .ok (site.location ++ names) := by
  refine hm.locate_of_parent hnames (hm.fits.tree.parent _ (site.path_ne_root names) ?_)
  rw [hnode]
  exact Option.some_ne_none _

/-- A file of a site has its bytes on the host. -/
theorem node?_file {data : Bytes} (hnode : m (site.path names) = some (.file data)) :
    ∃ number, h.node? (site.location ++ names) = some (.file number) ∧ h.data number = data := by
  obtain ⟨node', hnode', hview, -⟩ := hm.find_some hnames hnode
  cases node' with
  | directory number => cases hview
  | file number => exact ⟨number, hnode', by simpa [view] using hview⟩

/-- A free path of a site is free on the host. -/
theorem node?_none (hfree : m (site.path names) = none) :
    h.node? (site.location ++ names) = none := by
  rw [← Option.map_eq_none_iff, hm.node names hnames]
  exact hfree

/-! ### Directories -/

/-- A directory can be made at a free path below a directory. -/
theorem createDirectory_free (hfree : m (site.path names) = none)
    (hparent : m (Path.parent (site.path names)) = some .directory) :
    ∃ h', h.createDirectory (site.root.pushAll names) = (.ok (), h') ∧
      h'.Mirrors site (m.update (site.path names) (some .directory)) := by
  have hlocate := hm.locate_of_parent hnames hparent
  have hnode := hm.node?_none hnames hfree
  refine ⟨{ h with
    nodes := h.nodes.insert (site.location ++ names) (.directory h.nextDirectory)
    nextDirectory := h.nextDirectory + 1 }, ?_, ?_⟩
  · simp only [createDirectory, hlocate, hnode]
  · exact hm.create hnames (.directory h.nextDirectory) hfree hparent rfl rfl
      (List.prefix_refl _) nofun

/-- Elsewhere it cannot, and nothing changes. -/
theorem createDirectory_taken
    (htaken : ¬(m (site.path names) = none ∧ m (Path.parent (site.path names)) = some .directory)) :
    ∃ e, h.createDirectory (site.root.pushAll names) = (.error e, h) := by
  by_cases hparent : m (Path.parent (site.path names)) = some .directory
  · have hlocate := hm.locate_of_parent hnames hparent
    cases hnode : h.node? (site.location ++ names) with
    | some node => exact ⟨.os Errno.alreadyExists, by simp only [createDirectory, hlocate, hnode]⟩
    | none =>
      rw [← hm.node names hnames, hnode] at htaken
      exact absurd ⟨rfl, hparent⟩ htaken
  · obtain ⟨e, hlocate⟩ := hm.locate_error hnames hparent
    exact ⟨e, by simp only [createDirectory, hlocate]⟩

omit hnames in
/-- The names in a directory are those that the map has below it. -/
theorem mem_names_iff {name : String} : name ∈ h.names (site.location ++ names) ↔
    site.Admits (names ++ [name]) ∧ m (site.path (names ++ [name])) ≠ none := by
  rw [mem_names, List.append_assoc]
  constructor
  · intro hpresent
    have hadmits := hm.admits _ hpresent
    refine ⟨hadmits, ?_⟩
    rw [← hm.node _ hadmits]
    simpa using hpresent
  · rintro ⟨hadmits, hpresent⟩ habsent
    rw [← hm.node _ hadmits, habsent] at hpresent
    exact hpresent rfl

/-- No path of names ends in `.` or `..`. -/
theorem getLast?_parts : (site.root.pushAll names).parts.getLast? ≠ some "." ∧
    (site.root.pushAll names).parts.getLast? ≠ some ".." := by
  cases names using List.reverseRecOn with
  | nil => exact hm.leads.getLast?_parts site.location_ne
  | append_singleton first last =>
    have hlast := hnames.isName last (by simp)
    rw [HostPath.parts_pushAll hnames.ne_empty, ← List.append_assoc,
      List.getLast?_concat]
    exact ⟨fun heq => hlast.ne_dot (Option.some.inj heq),
      fun heq => hlast.ne_dots (Option.some.inj heq)⟩

/-- The host finds a directory empty if the map has nothing below it. -/
theorem isEmpty_names_iff :
    (h.names (site.location ++ names)).isEmpty = true ↔ ¬m.Occupied (site.path names) := by
  rw [hm.fits.occupied_iff hnames, List.isEmpty_iff, List.eq_nil_iff_forall_not_mem, not_exists]
  exact forall_congr' fun name => not_congr hm.mem_names_iff

/-- An empty directory can be removed. -/
theorem removeDirectory_free (hnode : m (site.path names) = some .directory)
    (hempty : ¬m.Occupied (site.path names)) :
    ∃ h', h.removeDirectory (site.root.pushAll names) = (.ok (), h') ∧
      h'.Mirrors site (m.update (site.path names) none) := by
  have hlocate := hm.locate_some hnames hnode
  obtain ⟨hdot, hdots⟩ := hm.getLast?_parts hnames
  have hnone := (hm.isEmpty_names_iff hnames).2 hempty
  refine ⟨{ h with nodes := h.nodes.erase (site.location ++ names) }, ?_,
    hm.remove hnames hnode (fun _ => hempty) rfl rfl rfl⟩
  simp [removeDirectory, hlocate, hdot, hdots, hnone]

/-- One that holds something cannot, and nothing changes. -/
theorem removeDirectory_occupied (hnode : m (site.path names) = some .directory)
    (hoccupied : m.Occupied (site.path names)) :
    ∃ e, h.removeDirectory (site.root.pushAll names) = (.error e, h) := by
  have hlocate := hm.locate_some hnames hnode
  obtain ⟨hdot, -⟩ := hm.getLast?_parts hnames
  have hsome : ¬(h.names (site.location ++ names)).isEmpty := fun hnone =>
    (hm.isEmpty_names_iff hnames).1 hnone hoccupied
  refine ⟨.os Errno.notEmpty, ?_⟩
  rw [removeDirectory, hlocate]
  dsimp only
  rw [if_neg hdot, if_pos (.inr hsome)]

/-- A file can be removed. -/
theorem removeFile_file {data : Bytes} (hnode : m (site.path names) = some (.file data)) :
    ∃ h', h.removeFile (site.root.pushAll names) = (.ok (), h') ∧
      h'.Mirrors site (m.update (site.path names) none) := by
  obtain ⟨node', -, hview, hfind⟩ := hm.find_some hnames hnode
  cases node' with
  | directory number => cases hview
  | file number =>
    refine ⟨{ h with nodes := h.nodes.erase (site.location ++ names) }, ?_,
      hm.remove hnames hnode nofun rfl rfl rfl⟩
    simp only [removeFile, hfind]

/-- What is not there cannot. -/
theorem removeFile_missing (hnode : m (site.path names) = none) :
    ∃ e, h.removeFile (site.root.pushAll names) = (.error e, h) := by
  obtain ⟨e, hfind⟩ := hm.find_none hnames hnode
  exact ⟨e, by simp only [removeFile, hfind]⟩

end Mirrors

/-! ### Files -/

/-- A handle is open on a file with the given contents. The position of a file that is appended to
does not count. -/
structure IsOpen (site : Site) (h : HostSystem) (m : PathMap) (file : Nat) (f : OpenFile)
    (data : Bytes) : Prop where
  mirrors : h.Mirrors site m
  record : ∃ names number, site.Admits names ∧ f.path = site.path names ∧
    h.node? (site.location ++ names) = some (.file number) ∧ h.data number = data ∧
    h.files.get? file = some ⟨number, if f.mode.append then 0 else f.position, f.mode.read,
      isWritable f.mode, f.mode.append⟩

namespace Mirrors

variable {site : Site} {m : PathMap} {names : List String} (hm : h.Mirrors site m)
  (hnames : site.Admits names)
include hm hnames

/-- A file handed out is open at the start, or wherever appending puts it. -/
theorem isOpen_giveFile {number : Nat}
    (hnode : h.node? (site.location ++ names) = some (.file number)) (mode : OpenMode)
    {position : Nat} (hposition : mode.append = false → position = 0) :
    ∃ file h', h.giveFile number mode = (.ok file, h') ∧
      h'.IsOpen site m file ⟨site.path names, position, mode⟩ (h.data number) := by
  refine ⟨h.files.next, (h.giveFile number mode).2, rfl, hm.of_eq rfl rfl rfl, names, number,
    hnames, rfl, hnode, rfl, ?_⟩
  have hstart : (if mode.append then 0 else position) = 0 := by
    cases happend : mode.append with
    | false => exact hposition happend
    | true => rfl
  simp only [giveFile, Handles.get?_add_next, hstart]

/-- A file that is there is opened. -/
theorem openFile_file (mode : OpenMode) {data : Bytes}
    (hnode : m (site.path names) = some (.file data))
    (hmode : isWritable mode = true ∨ mode.read = true ∧ mode.create = false)
    {position : Nat} (hposition : mode.append = false → position = 0) :
    ∃ file h', h.openFile (site.root.pushAll names) mode = (.ok file, h') ∧
      h'.IsOpen site m file ⟨site.path names, position, mode⟩ data := by
  obtain ⟨number, hfile, rfl⟩ := hm.node?_file hnames hnode
  rw [openFile_located (hm.locate_some hnames hnode) (hnames.endsInSeparator) hmode, hfile]
  exact hm.isOpen_giveFile hnames hfile mode hposition

/-- A file that is missing is created. -/
theorem openFile_free (mode : OpenMode) (hfree : m (site.path names) = none)
    (hparent : m (Path.parent (site.path names)) = some .directory)
    (hmode : isWritable mode = true) (hcreate : mode.create = true) {position : Nat}
    (hposition : mode.append = false → position = 0) :
    ∃ file h', h.openFile (site.root.pushAll names) mode = (.ok file, h') ∧
      h'.IsOpen site (m.update (site.path names) (some (.file []))) file
        ⟨site.path names, position, mode⟩ [] := by
  have hlocate := hm.locate_of_parent hnames hparent
  let h' := (h.createFile (site.location ++ names)).2
  have hcreated : h'.Mirrors site (m.update (site.path names)
      (some (h'.view (.file h.contents.length)))) := by
    refine hm.create hnames _ hfree hparent rfl rfl (List.prefix_append _ _) fun k hk => ?_
    cases hk
    simp [h', createFile]
  have hdata : h'.data h.contents.length = [] := by simp [h', createFile, HostSystem.data]
  rw [view, hdata] at hcreated
  have hnode : h'.node? (site.location ++ names) = some (.file h.contents.length) := by
    rw [node?_insert (h := h) rfl (Mirrors.location_ne site names), if_pos rfl]
  obtain ⟨file, h'', hgive, hopen⟩ := hcreated.isOpen_giveFile hnames hnode mode hposition
  rw [hdata] at hopen
  refine ⟨file, h'', ?_, hopen⟩
  rw [openFile_located hlocate hnames.endsInSeparator (.inl hmode),
    hm.node?_none hnames hfree]
  simp only [hcreate, if_true]
  exact hgive

/-- What is missing is not opened, unless it is created in a directory. -/
theorem openFile_missing (mode : OpenMode) (hfree : m (site.path names) = none)
    (hmode : isWritable mode = true ∨ mode.read = true ∧ mode.create = false)
    (hcreate : mode.create = true → m (Path.parent (site.path names)) ≠ some .directory) :
    ∃ e, h.openFile (site.root.pushAll names) mode = (.error e, h) := by
  by_cases hparent : m (Path.parent (site.path names)) = some .directory
  · have hkept : ¬mode.create = true := fun h => hcreate h hparent
    refine ⟨.os Errno.noEntry, ?_⟩
    rw [openFile_located (hm.locate_of_parent hnames hparent) hnames.endsInSeparator hmode,
      hm.node?_none hnames hfree]
    exact if_neg hkept
  · obtain ⟨e, hlocate⟩ := hm.locate_error hnames hparent
    exact openFile_not_located hlocate mode

end Mirrors

namespace IsOpen

variable {site : Site} {m : PathMap} {file : Nat} {f : OpenFile} {data : Bytes}
  (ho : h.IsOpen site m file f data)
include ho

/-- A read gives the bytes at the position and moves it behind them. -/
theorem read (hmode : f.mode = .readOnly) {length : Nat}
    (hend : f.position + length ≤ maxOffset) :
    ∃ h', h.readFile file length = (.ok ((data.drop f.position).take length), h') ∧
      h'.IsOpen site m file
        { f with position := f.position + min length (data.length - f.position) } data := by
  obtain ⟨names, number, hnames, hpath, hnode, rfl, hrecord⟩ := ho.record
  rw [hmode] at hrecord
  by_cases hlength : length = 0
  · -- Nothing is read, and the handle stays as it is.
    subst hlength
    refine ⟨h, by simp [readFile, hrecord], ho.mirrors, names, number, hnames, hpath, hnode, rfl,
      ?_⟩
    rw [hrecord, hmode]
    simp
  · let position := f.position + min length ((h.data number).length - f.position)
    refine ⟨{ h with files := h.files.set file ⟨number, position, true, false, false⟩ },
      ?_, ho.mirrors.of_eq rfl rfl rfl, names, number, hnames, hpath, hnode, rfl, ?_⟩
    · simp [readFile, hrecord, hlength, OpenMode.readOnly, isWritable, hend, position]
    · rw [Handles.get?_set_self hrecord, hmode]
      rfl

/-- A seek moves the position, also behind the end. -/
theorem seek (hmode : f.mode = .readOnly) {offset : Nat} (hoffset : offset ≤ maxOffset) :
    ∃ h', h.seekFile file offset = (.ok (), h') ∧
      h'.IsOpen site m file { f with position := offset } data := by
  obtain ⟨names, number, hnames, hpath, hnode, rfl, hrecord⟩ := ho.record
  rw [hmode] at hrecord
  refine ⟨{ h with files := h.files.set file ⟨number, offset, true, false, false⟩ }, ?_,
    ho.mirrors.of_eq rfl rfl rfl, names, number, hnames, hpath, hnode, rfl, ?_⟩
  · simp [seekFile, hrecord, OpenMode.readOnly, isWritable, hoffset]
  · rw [Handles.get?_set_self hrecord, hmode]
    rfl

/-- A file is cut or filled with zeros, as the bytes of the site are. -/
theorem truncate (hmode : f.mode.write = true) {length : Nat} (hlength : length ≤ maxOffset) :
    ∃ h', h.truncateFile file length = (.ok (), h') ∧
      h'.IsOpen site (m.update f.path (some (.file (data.resize length)))) file f
        (data.resize length) := by
  obtain ⟨names, number, hnames, hpath, hnode, rfl, hrecord⟩ := ho.record
  have hnumber := ho.mirrors.number_lt names number hnode
  refine ⟨h.setData number ((h.data number).resize length), ?_, ?_, names, number, hnames, hpath,
    hnode, ?_, hrecord⟩
  · simp [truncateFile, hrecord, isWritable, hmode, hlength]
  · rw [hpath]
    exact ho.mirrors.alter hnames hnode _
  · rw [data_setData hnumber, if_pos rfl]

/-- Bytes are written at the start, or behind the end when appending. -/
theorem write (hmode : f.mode.write = true) (hstart : f.position = 0 ∨ f.mode.append = true)
    {bytes : Bytes} (hlength : bytes.length ≤ maxOffset) :
    ∃ h', h.writeFile file bytes = (.ok bytes.length, h') ∧
      h'.Mirrors site (m.update f.path (some (.file
        (data.overwrite (if f.mode.append then data.length else 0) bytes)))) := by
  obtain ⟨names, number, hnames, hpath, hnode, rfl, hrecord⟩ := ho.record
  have hzero : (if f.mode.append then 0 else f.position) = 0 := by
    rcases hstart with hstart | happend
    · rw [hstart, ite_self]
    · rw [if_pos happend]
  rw [hzero] at hrecord
  by_cases hempty : bytes = []
  · -- Nothing is written, and the contents stay as they are.
    subst hempty
    have hkept : (h.data number).overwrite
        (if f.mode.append then (h.data number).length else 0) [] = h.data number := by
      split <;> simp [Bytes.overwrite]
    have hfile : m (site.path names) = some (.file (h.data number)) := by
      rw [← ho.mirrors.node names hnames, hnode]
      rfl
    refine ⟨h, by simp [writeFile, hrecord], ?_⟩
    rw [hkept, hpath, PathMap.update_eq_self hfile]
    exact ho.mirrors
  · let position := if f.mode.append then (h.data number).length else 0
    let written := h.setData number ((h.data number).overwrite position bytes)
    refine ⟨{ written with
      files := written.files.set file
        ⟨number, position + bytes.length, f.mode.read, isWritable f.mode, f.mode.append⟩ }, ?_, ?_⟩
    · have hend : ¬0 + bytes.length > maxOffset := by omega
      have hwritable : isWritable f.mode = true := by simp [isWritable, hmode]
      simp only [writeFile, hrecord, List.isEmpty_iff, hempty, hwritable, hend, if_false,
        Bool.not_true, Bool.false_eq_true]
      rfl
    · rw [hpath]
      exact (ho.mirrors.alter hnames hnode _).of_eq rfl rfl rfl

end IsOpen

end HostSystem
end FlashVolume

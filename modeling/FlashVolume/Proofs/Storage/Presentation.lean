import FlashVolume.Proofs.Fits
import FlashVolume.Proofs.Storage.Listing
/-!
# Volumes that show a map

What an operation answers on a volume without faults depends on the map of its paths alone. A
`Presentation` of a volume says when a state of it `Shows` a map, and what each call then answers:
the answer itself if the call succeeds, and otherwise only that it fails. After a call the state
shows the map that the call leads to.

Two kinds of volume that are presented at the same site answer alike as long as they show the same
map, whatever else is in their states.
-/

universe u

namespace FlashVolume

namespace Backend

variable {σ : Type u} {α : Type}

/-- The call succeeds, and leads to a state that shows the map. -/
def Grants (B : Backend σ) (Shows : σ → PathMap → Prop) (c : Call α) (a : α) (s : σ)
    (m : PathMap) : Prop :=
  ∃ s', B.answer c s = (.ok a, s') ∧ Shows s' m

/-- The call fails, and leads to a state that shows the map. -/
def Refuses (B : Backend σ) (Shows : σ → PathMap → Prop) (c : Call α) (s : σ)
    (m : PathMap) : Prop :=
  ∃ e s', B.answer c s = (.error e, s') ∧ Shows s' m

end Backend

namespace Site

/-- The entries are those of a directory, in some order. -/
structure Lists (site : Site) (m : PathMap) (names : List String) (entries : List Entry) :
    Prop where
  nodup : entries.Nodup
  mem_iff : ∀ entry, entry ∈ entries ↔ ∃ name node, site.Admits (names ++ [name]) ∧
    m (site.path (names ++ [name])) = some node ∧ entry = node.toEntry name

/-- The entries of a directory are the same, whoever lists them. -/
theorem Lists.perm {site : Site} {m : PathMap} {names : List String} {entries entries' : List Entry}
    (h : site.Lists m names entries) (h' : site.Lists m names entries') :
    entries.Perm entries' :=
  (List.perm_ext_iff_of_nodup h.nodup h'.nodup).2 fun entry =>
    (h.mem_iff entry).trans (h'.mem_iff entry).symm

end Site

namespace OpenMode

variable {mode : OpenMode} (h : mode = .replacing ∨ mode = .appending)
include h

/-- The modes that files are written with create a file that is missing. -/
theorem create_of_writing : mode.create = true := by
  rcases h with rfl | rfl <;> rfl

/-- Replacing and appending write. -/
theorem write_of_writing : mode.write = true := by
  rcases h with rfl | rfl <;> rfl

end OpenMode

/-- How a volume shows a map at a site. -/
structure Presentation (site : Site) {σ : Type u} (B : Backend σ) where
  /-- The state shows the map. -/
  Shows : σ → PathMap → Prop
  /-- The state shows the map, and the handle is open on a file with the given contents. -/
  Working : σ → PathMap → FileHandle → OpenFile → Bytes → Prop
  fits : ∀ {s m}, Shows s m → site.Fits m
  shows_of_working : ∀ {s m file f data}, Working s m file f data → Shows s m
  stat_some : ∀ {s m names node}, Shows s m → site.Admits names → m (site.path names) = some node →
    B.Grants Shows (.stat (site.path names)) (node.toEntry (Path.fileName (site.path names))) s m
  stat_none : ∀ {s m names}, Shows s m → site.Admits names → m (site.path names) = none →
    B.Refuses Shows (.stat (site.path names)) s m
  mkdir_free : ∀ {s m names}, Shows s m → site.Admits names → m (site.path names) = none →
    m (Path.parent (site.path names)) = some .directory →
      B.Grants Shows (.mkdir (site.path names)) () s (m.update (site.path names) (some .directory))
  mkdir_taken : ∀ {s m names}, Shows s m → site.Admits names →
    ¬(m (site.path names) = none ∧ m (Path.parent (site.path names)) = some .directory) →
      B.Refuses Shows (.mkdir (site.path names)) s m
  unlink_free : ∀ {s m names node}, Shows s m → site.Admits names →
    m (site.path names) = some node → (node = .directory → ¬m.Occupied (site.path names)) →
      B.Grants Shows (.unlink (site.path names)) () s (m.update (site.path names) none)
  unlink_missing : ∀ {s m names}, Shows s m → site.Admits names → m (site.path names) = none →
    B.Refuses Shows (.unlink (site.path names)) s m
  unlink_occupied : ∀ {s m names}, Shows s m → site.Admits names →
    m (site.path names) = some .directory → m.Occupied (site.path names) →
      B.Refuses Shows (.unlink (site.path names)) s m
  open_file : ∀ {s m names data}, Shows s m → site.Admits names →
    m (site.path names) = some (.file data) →
      ∃ file s', B.answer (.open (site.path names) .readOnly) s = (.ok file, s') ∧
        Working s' m file ⟨site.path names, 0, .readOnly⟩ data
  open_other : ∀ {s m names}, Shows s m → site.Admits names →
    (∀ data, m (site.path names) ≠ some (.file data)) →
      B.Refuses Shows (.open (site.path names) .readOnly) s m
  /-- A file that is there is kept, and a free path becomes an empty file. -/
  open_creating : ∀ {s m names mode data}, Shows s m → site.Admits names →
    mode = .replacing ∨ mode = .appending → m.beforeWrite (site.path names) = .ok data →
      ∃ file s', B.answer (.open (site.path names) mode) s = (.ok file, s') ∧
        Working s' (m.update (site.path names) (some (.file data))) file
          ⟨site.path names, if mode.append then data.length else 0, mode⟩ data
  open_refused : ∀ {s m names mode e}, Shows s m → site.Admits names →
    mode = .replacing ∨ mode = .appending → m.beforeWrite (site.path names) = .error e →
      B.Refuses Shows (.open (site.path names) mode) s m
  read : ∀ {s m file f data length}, Working s m file f data → f.mode = .readOnly →
    f.position + length ≤ HostSystem.maxOffset →
      ∃ s', B.answer (.read file length) s = (.ok ((data.drop f.position).take length), s') ∧
        Working s' m file
          { f with position := f.position + min length (data.length - f.position) } data
  seek : ∀ {s m file f data offset}, Working s m file f data → f.mode = .readOnly →
    offset ≤ HostSystem.maxOffset → ∃ s', B.answer (.seek file offset) s = (.ok (), s') ∧
      Working s' m file { f with position := offset } data
  truncate : ∀ {s m file f data length}, Working s m file f data → f.mode.write = true →
    length ≤ HostSystem.maxOffset →
      ∃ s', B.answer (.truncate file length) s = (.ok (), s') ∧
        Working s' (m.update f.path (some (.file (data.resize length)))) file f
          (data.resize length)
  /-- A write at the start of a file, or at its end if it is appended to. -/
  write : ∀ {s m file f data bytes}, Working s m file f data → f.mode.write = true →
    f.position = 0 ∨ f.mode.append = true → bytes.length ≤ HostSystem.maxOffset →
      B.Grants Shows (.write file bytes) bytes.length s (m.update f.path (some (.file
        (data.overwrite (if f.mode.append then data.length else 0) bytes))))
  close : ∀ {s m} (file : FileHandle), Shows s m → B.Grants Shows (.close file) () s m
  opendir : ∀ {s m names}, Shows s m → site.Admits names →
    m (site.path names) = some .directory →
      ∃ dir s' entries, B.answer (.opendir (site.path names)) s = (.ok dir, s') ∧
        site.Lists m names entries ∧ B.Delivers (Shows · m) dir entries s'
  opendir_other : ∀ {s m names}, Shows s m → site.Admits names →
    m (site.path names) ≠ some .directory → B.Refuses Shows (.opendir (site.path names)) s m
  closedir : ∀ {s m} (dir : DirHandle), Shows s m → Shows (B.answer (.closedir dir) s).2 m

end FlashVolume

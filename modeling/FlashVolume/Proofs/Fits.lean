import FlashVolume.Proofs.Memory.Tree
import FlashVolume.Proofs.Site
/-!
# Trees at a site

A map `Fits` a site if it is a tree and every path of it, but for the root, is the mount point
followed by names. New entries, new contents and removals keep it so.
-/

namespace FlashVolume

namespace Site

variable {site : Site} {m : PathMap} {names rest : List String} {name : String}

/-- The map is a tree of paths at the site. -/
structure Fits (site : Site) (m : PathMap) : Prop where
  tree : m.IsTree
  isPath : ∀ path, m path ≠ none → path = "/" ∨ site.IsPath path

/-- What stands above an entry is a directory. -/
theorem Fits.directory_of_append (hm : site.Fits m) (h : site.Admits (names ++ rest))
    (hrest : rest ≠ []) (hpresent : m (site.path (names ++ rest)) ≠ none) :
    m (site.path names) = some .directory := by
  induction rest using List.reverseRecOn with
  | nil => exact absurd rfl hrest
  | append_singleton rest name ih =>
    rw [← List.append_assoc] at h hpresent
    have hparent := hm.tree.parent _ (path_ne_root site _) hpresent
    rw [parent_path_concat site _ (h.isName name (by simp)).notMem] at hparent
    by_cases hempty : rest = []
    · rwa [hempty, List.append_nil] at hparent
    · exact ih h.of_append hempty (by rw [hparent]; exact Option.some_ne_none _)

/-- Something is below a directory if it has an entry. -/
theorem Fits.occupied_iff (hm : site.Fits m) (h : site.Admits names) :
    m.Occupied (site.path names) ↔
      ∃ name, site.Admits (names ++ [name]) ∧ m (site.path (names ++ [name])) ≠ none := by
  constructor
  · rintro ⟨path, ⟨after, hbelow⟩, hpresent⟩
    have hsplit : path.toList = (site.path names).toList ++ '/' :: after := by
      simpa using hbelow.symm
    have hroot : path ≠ "/" := by
      rintro rfl
      have hlength := congrArg List.length hsplit
      have hlong : 0 < (site.path names).toList.length :=
        List.length_pos_iff.2 (by simpa using site.path_ne_empty names)
      simp at hlength
      omega
    obtain ⟨names', h', rfl⟩ := (hm.isPath path hpresent).resolve_left hroot
    rcases Path.exists_of_toList_ofNames h'.notMem hsplit with
      ⟨first, name, rest, rfl, hfirst⟩ | ⟨after', hmount⟩
    · rw [← List.singleton_append, ← List.append_assoc] at h' hpresent
      have hnames : names = first :=
        path_inj h h'.of_append.of_append (String.toList_inj.1 hfirst)
      subst hnames
      refine ⟨name, h'.of_append, ?_⟩
      by_cases hrest : rest = []
      · rwa [hrest, List.append_nil] at hpresent
      · rw [hm.directory_of_append h' hrest hpresent]
        exact Option.some_ne_none _
    · -- The path of the names is at least as long as the mount point.
      have hlength := congrArg List.length hmount
      rw [path, Path.toList_ofNames] at hlength
      simp at hlength
  · rintro ⟨name, -, hpresent⟩
    refine ⟨_, ?_, hpresent⟩
    rw [path_concat]
    simp

/-- What is there below the path of some names has a name. -/
theorem Fits.admits_of_child (hm : site.Fits m) (h : site.Admits names)
    (hname : '/' ∉ name.toList) (hpresent : m (site.path (names ++ [name])) ≠ none) :
    site.Admits (names ++ [name]) := by
  obtain ⟨names', h', heq⟩ := (hm.isPath _ hpresent).resolve_left (site.path_ne_root _)
  have hall : ∀ n ∈ names ++ [name], '/' ∉ n.toList := by
    intro n hn
    rcases List.mem_append.1 hn with hn | hn
    · exact h.notMem n hn
    · rw [List.mem_singleton.1 hn]
      exact hname
  rw [Path.ofNames_inj hall h'.notMem heq]
  exact h'

/-- What a map has at a path that is a file is at a path of names. -/
theorem Fits.exists_of_file (hm : site.Fits m) {path : String} {data : Bytes}
    (hfile : m path = some (.file data)) : ∃ names, site.Admits names ∧ path = site.path names := by
  refine (hm.isPath path (by rw [hfile]; exact Option.some_ne_none _)).resolve_left ?_
  rintro rfl
  rw [hm.tree.root] at hfile
  cases hfile

/-- The map with another entry at the path of some names. -/
theorem update_path (h : site.Admits names) {names' : List String} (h' : site.Admits names')
    (m : PathMap) (node : Option Node) :
    m.update (site.path names) node (site.path names') =
      if names' = names then node else m (site.path names') :=
  if_congr ⟨path_inj h' h, congrArg site.path⟩ rfl rfl

namespace Fits

/-- A path that is taken after an update is the root, or the path of admitted names. -/
theorem isPath_update (hm : site.Fits m) (h : site.Admits names) (node : Option Node) :
    ∀ path, m.update (site.path names) node path ≠ none → path = "/" ∨ site.IsPath path := by
  intro path hpath
  by_cases hsame : path = site.path names
  · exact .inr ⟨names, h, hsame⟩
  · rw [PathMap.update, if_neg hsame] at hpath
    exact hm.isPath path hpath

/-- A free name below a directory may be taken. -/
theorem create (hm : site.Fits m) (h : site.Admits names) (node : Node)
    (hfree : m (site.path names) = none)
    (hparent : m (Path.parent (site.path names)) = some .directory) :
    site.Fits (m.update (site.path names) (some node)) :=
  ⟨hm.tree.create node hfree hparent, hm.isPath_update h _⟩

/-- A file may get other contents. -/
theorem alter (hm : site.Fits m) (h : site.Admits names) {old : Bytes} (new : Bytes)
    (hfile : m (site.path names) = some (.file old)) :
    site.Fits (m.update (site.path names) (some (.file new))) :=
  ⟨hm.tree.alter new hfile, hm.isPath_update h _⟩

/-- New contents of a file, wherever it is. -/
theorem alter_file (hm : site.Fits m) {path : String} {old : Bytes} (new : Bytes)
    (hfile : m path = some (.file old)) : site.Fits (m.update path (some (.file new))) := by
  obtain ⟨names, hnames, rfl⟩ := hm.exists_of_file hfile
  exact hm.alter hnames new hfile

/-- Making room for a write. -/
theorem beforeWrite (hm : site.Fits m) (h : site.Admits names) {data : Bytes}
    (hdata : m.beforeWrite (site.path names) = .ok data) :
    site.Fits (m.update (site.path names) (some (.file data))) := by
  rcases PathMap.beforeWrite_eq_ok.1 hdata with hfile | ⟨hfree, hparent, rfl⟩
  · exact hm.alter h data hfile
  · exact hm.create h _ hfree hparent

/-- What has nothing below it may be removed. -/
theorem remove (hm : site.Fits m) (h : site.Admits names) {node : Node}
    (hnode : m (site.path names) = some node)
    (hempty : node = .directory → ¬m.Occupied (site.path names)) :
    site.Fits (m.update (site.path names) none) :=
  ⟨hm.tree.remove (site.path_ne_root names) hnode hempty, hm.isPath_update h _⟩

end Fits
end Site
end FlashVolume

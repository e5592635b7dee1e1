import FlashVolume.Proofs.Fits
/-!
# The map below a root

A host `Mirrors` a map of paths at a site if below the location of the root it has what the map has
at the paths of the same names: the same entries, of the same kind and with the same contents. No
two entries share their contents, so changing a file changes one path of the map.

`Mirrors.create`, `Mirrors.alter` and `Mirrors.remove` say what changes of the host do to the map,
and `Mirrors.find_some` and `Mirrors.find_none` what walking a path of names finds.
-/

namespace FlashVolume

namespace HostSystem

/-- A node of the host, as a node of a volume. -/
def view (h : HostSystem) : HostNode → Node
  | .directory _ => .directory
  | .file number => .file (h.data number)

/-- Below the location of the root there is what the map has at the paths of the same names. -/
structure Mirrors (site : Site) (h : HostSystem) (m : PathMap) : Prop where
  fits : site.Fits m
  leads : h.LeadsTo site.root site.location
  node : ∀ names, site.Admits names →
    (h.node? (site.location ++ names)).map h.view = m (site.path names)
  admits : ∀ names, h.node? (site.location ++ names) ≠ none → site.Admits names
  number_lt : ∀ names k, h.node? (site.location ++ names) = some (.file k) → k < h.contents.length
  /-- No two entries are the same file. -/
  number_inj : ∀ names names' k, h.node? (site.location ++ names) = some (.file k) →
    h.node? (site.location ++ names') = some (.file k) → names = names'

/-! ### Changes of the host -/

section Nodes

variable {h h' : HostSystem} {location : List String}

/-- A new node stands at its own location, and the others where they stood. -/
theorem node?_insert {node : HostNode} (hnodes : h'.nodes = h.nodes.insert location node)
    (hlocation : location ≠ []) (l : List String) :
    h'.node? l = if l = location then some node else h.node? l := by
  by_cases hl : l = location
  · subst hl
    simp [node?, hlocation, hnodes]
  · by_cases hempty : l = []
    · simp [node?, hempty, Ne.symm hlocation]
    · simp [node?, hempty, hl, hnodes, Std.TreeMap.getElem?_insert, Ne.symm hl]

/-- A removed node is gone, and the others stand where they stood. -/
theorem node?_erase (hnodes : h'.nodes = h.nodes.erase location) (hlocation : location ≠ [])
    (l : List String) : h'.node? l = if l = location then none else h.node? l := by
  by_cases hl : l = location
  · subst hl
    simp [node?, hlocation, hnodes]
  · by_cases hempty : l = []
    · simp [node?, hempty, Ne.symm hlocation]
    · simp [node?, hempty, hl, hnodes, Std.TreeMap.getElem?_erase, Ne.symm hl]

/-- Locations read the nodes only. -/
theorem node?_congr (hnodes : h'.nodes = h.nodes) : h'.node? = h.node? := by
  funext l
  simp only [node?, hnodes]

/-- What a site sees of a node depends on the contents only. -/
theorem view_congr (hcontents : h'.contents = h.contents) : h'.view = h.view := by
  funext node
  cases node with
  | directory number => rfl
  | file number => simp only [view, HostSystem.data, hcontents]

/-- New contents come behind the others, which stay as they are. -/
theorem view_eq_of_lt (hcontents : h.contents <+: h'.contents) {node : HostNode}
    (hnumber : ∀ k, node = .file k → k < h.contents.length) : h'.view node = h.view node := by
  cases node with
  | directory number => rfl
  | file number =>
    obtain ⟨more, hmore⟩ := hcontents
    simp only [view, HostSystem.data, ← hmore, List.getElem?_append_left (hnumber number rfl)]

/-- Changing the contents of a file changes nothing else. -/
theorem data_setData {number k : Nat} {data : Bytes} (hnumber : number < h.contents.length) :
    (h.setData number data).data k = if k = number then data else h.data k := by
  by_cases hk : k = number
  · subst hk
    simp [HostSystem.data, setData, hnumber]
  · simp [HostSystem.data, setData, hk, List.getElem?_set_ne (Ne.symm hk)]

end Nodes

namespace Mirrors

variable {site : Site} {h h' : HostSystem} {m : PathMap} {names : List String}

/-- Names and contents are all that counts. -/
theorem of_eq (hm : h.Mirrors site m) (hdir : h'.workingDirectory = h.workingDirectory)
    (hnodes : h'.nodes = h.nodes) (hcontents : h'.contents = h.contents) :
    h'.Mirrors site m := by
  have hnode : h'.node? = h.node? := node?_congr hnodes
  have hview : h'.view = h.view := view_congr hcontents
  refine ⟨hm.fits, hm.leads.of_eq hdir fun l _ => by rw [hnode], ?_, ?_, ?_, ?_⟩
  · rw [hnode, hview]
    exact hm.node
  · rw [hnode]
    exact hm.admits
  · rw [hnode, hcontents]
    exact hm.number_lt
  · rw [hnode]
    exact hm.number_inj

/-- A change below the location of the root does not change where the root is. -/
theorem leads_of_below (hm : h.Mirrors site m) (names : List String)
    (hdir : h'.workingDirectory = h.workingDirectory)
    (hother : ∀ l, l ≠ site.location ++ names → h'.node? l = h.node? l) :
    h'.LeadsTo site.root site.location := by
  refine hm.leads.of_eq hdir fun l hbelow => hother l ?_
  rintro rfl
  exact hbelow (List.prefix_append _ _)

/-- A site is never the root of the host. -/
theorem location_ne (site : Site) (names : List String) : site.location ++ names ≠ [] := by
  simp [site.location_ne]

/-- **A new entry.**  Its contents, if it is a file, are new as well. -/
theorem create (hm : h.Mirrors site m) (hnames : site.Admits names) (node : HostNode)
    (hfree : m (site.path names) = none)
    (hparent : m (Path.parent (site.path names)) = some .directory)
    (hdir : h'.workingDirectory = h.workingDirectory)
    (hnodes : h'.nodes = h.nodes.insert (site.location ++ names) node)
    (hcontents : h.contents <+: h'.contents)
    (hnumber : ∀ k, node = .file k → k = h.contents.length ∧ k < h'.contents.length) :
    h'.Mirrors site (m.update (site.path names) (some (h'.view node))) := by
  have hnode := node?_insert hnodes (location_ne site names)
  refine ⟨hm.fits.create hnames _ hfree hparent, ?_, ?_, ?_, ?_, ?_⟩
  · exact hm.leads_of_below names hdir fun l hl => by rw [hnode, if_neg hl]
  · intro names' hnames'
    rw [Site.update_path hnames hnames']
    by_cases hsame : names' = names
    · subst hsame
      rw [hnode, if_pos rfl, if_pos rfl]
      rfl
    · rw [hnode, if_neg (by simpa using hsame), if_neg hsame, ← hm.node names' hnames']
      cases hold : h.node? (site.location ++ names') with
      | none => rfl
      | some old =>
        have hkept : h'.view old = h.view old := view_eq_of_lt hcontents fun k hk =>
          hm.number_lt names' k (by rw [hold, hk])
        rw [Option.map_some, Option.map_some, hkept]
  · intro names' hpresent
    by_cases hsame : names' = names
    · exact hsame ▸ hnames
    · rw [hnode, if_neg (by simpa using hsame)] at hpresent
      exact hm.admits names' hpresent
  · intro names' k hk
    by_cases hsame : names' = names
    · rw [hnode, if_pos (by rw [hsame])] at hk
      exact (hnumber k (Option.some.inj hk)).2
    · rw [hnode, if_neg (by simpa using hsame)] at hk
      exact Nat.lt_of_lt_of_le (hm.number_lt names' k hk) hcontents.length_le
  · -- The number of a new file is that of no other one.
    have hnew : ∀ names' k, names' ≠ names → h'.node? (site.location ++ names') = some (.file k) →
        h.node? (site.location ++ names') = some (.file k) ∧ node ≠ .file k := by
      intro names' k hsame hk
      rw [hnode, if_neg (by simpa using hsame)] at hk
      refine ⟨hk, fun heq => ?_⟩
      have hlt := hm.number_lt names' k hk
      have := (hnumber k heq).1
      omega
    intro names₁ names₂ k h₁ h₂
    by_cases hsame₁ : names₁ = names
    · by_cases hsame₂ : names₂ = names
      · rw [hsame₁, hsame₂]
      · rw [hnode, if_pos (by rw [hsame₁])] at h₁
        exact absurd (Option.some.inj h₁) (hnew names₂ k hsame₂ h₂).2
    · by_cases hsame₂ : names₂ = names
      · rw [hnode, if_pos (by rw [hsame₂])] at h₂
        exact absurd (Option.some.inj h₂) (hnew names₁ k hsame₁ h₁).2
      · exact hm.number_inj names₁ names₂ k (hnew names₁ k hsame₁ h₁).1 (hnew names₂ k hsame₂ h₂).1

/-- **New contents of a file.** -/
theorem alter (hm : h.Mirrors site m) (hnames : site.Admits names) {number : Nat}
    (hnode : h.node? (site.location ++ names) = some (.file number)) (data : Bytes) :
    (h.setData number data).Mirrors site (m.update (site.path names) (some (.file data))) := by
  have hlt := hm.number_lt names number hnode
  have hnodes : (h.setData number data).node? = h.node? := node?_congr rfl
  have hfile : m (site.path names) = some (.file (h.data number)) := by
    rw [← hm.node names hnames, hnode]
    rfl
  refine ⟨hm.fits.alter hnames data hfile, ?_, ?_, ?_, ?_, ?_⟩
  · exact hm.leads.of_eq rfl fun l _ => by rw [hnodes]
  · intro names' hnames'
    rw [hnodes, Site.update_path hnames hnames']
    by_cases hsame : names' = names
    · subst hsame
      rw [hnode, if_pos rfl, Option.map_some, view, data_setData hlt, if_pos rfl]
    · rw [if_neg hsame, ← hm.node names' hnames']
      cases hold : h.node? (site.location ++ names') with
      | none => rfl
      | some old =>
        cases old with
        | directory k => rfl
        | file k =>
          have hk : k ≠ number := by
            rintro rfl
            exact hsame (hm.number_inj names' names k hold hnode)
          rw [Option.map_some, Option.map_some, view, view, data_setData hlt, if_neg hk]
  · rw [hnodes]
    exact hm.admits
  · rw [hnodes]
    intro names' k hk
    have hlength : (h.setData number data).contents.length = h.contents.length := by
      simp [setData]
    rw [hlength]
    exact hm.number_lt names' k hk
  · rw [hnodes]
    exact hm.number_inj

/-- **An entry that is removed,** with nothing below it. -/
theorem remove (hm : h.Mirrors site m) (hnames : site.Admits names) {node : Node}
    (hnode : m (site.path names) = some node)
    (hempty : node = .directory → ¬m.Occupied (site.path names))
    (hdir : h'.workingDirectory = h.workingDirectory)
    (hnodes : h'.nodes = h.nodes.erase (site.location ++ names))
    (hcontents : h'.contents = h.contents) :
    h'.Mirrors site (m.update (site.path names) none) := by
  have herase := node?_erase hnodes (location_ne site names)
  have hview : h'.view = h.view := view_congr hcontents
  have hkept : ∀ names' node', h'.node? (site.location ++ names') = some node' →
      h.node? (site.location ++ names') = some node' := by
    intro names' node' hpresent
    rw [herase] at hpresent
    split at hpresent
    · cases hpresent
    · exact hpresent
  refine ⟨hm.fits.remove hnames hnode hempty, ?_, ?_, ?_, ?_, ?_⟩
  · exact hm.leads_of_below names hdir fun l hl => by rw [herase, if_neg hl]
  · intro names' hnames'
    rw [Site.update_path hnames hnames']
    by_cases hsame : names' = names
    · subst hsame
      rw [herase, if_pos rfl, if_pos rfl]
      rfl
    · rw [herase, if_neg (by simpa using hsame), if_neg hsame, hview]
      exact hm.node names' hnames'
  · intro names' hpresent
    obtain ⟨node', hnode'⟩ := Option.ne_none_iff_exists'.1 hpresent
    exact hm.admits names' (by rw [hkept names' node' hnode']; exact Option.some_ne_none _)
  · intro names' k hk
    rw [hcontents]
    exact hm.number_lt names' k (hkept names' _ hk)
  · intro names₁ names₂ k h₁ h₂
    exact hm.number_inj names₁ names₂ k (hkept names₁ _ h₁) (hkept names₂ _ h₂)

/-! ### Walking -/

/-- A path of the site leads through its names, since the way to the site is kept. -/
theorem locate_eq (hm : h.Mirrors site m) (hnames : site.Admits names) :
    h.locate (site.root.pushAll names) = h.walk site.location names :=
  locate_pushAll site.root_open hm.leads.locate hnames.ne_empty
    (fun name hname => (hnames.isName name hname).noNul) hnames.hostLength_le

/-- A directory of the site is one on the host. -/
theorem exists_directory (hm : h.Mirrors site m) (hnames : site.Admits names)
    (hnode : m (site.path names) = some .directory) :
    ∃ number, h.node? (site.location ++ names) = some (.directory number) := by
  rw [← hm.node names hnames, Option.map_eq_some_iff] at hnode
  obtain ⟨node, hnode, hview⟩ := hnode
  cases node with
  | directory number => exact ⟨number, hnode⟩
  | file number => cases hview

/-- **A path is located if its parent is a directory.** -/
theorem locate_of_parent (hm : h.Mirrors site m) (hnames : site.Admits names)
    (hparent : m (Path.parent (site.path names)) = some .directory) :
    h.locate (site.root.pushAll names) = .ok (site.location ++ names) := by
  rw [hm.locate_eq hnames]
  induction names using List.reverseRecOn with
  | nil => rw [walk, List.append_nil]
  | append_singleton names name ih =>
    have hname := hnames.isName name (by simp)
    rw [Site.parent_path_concat site names hname.notMem] at hparent
    have habove := hm.fits.tree.parent _ (site.path_ne_root names)
      (by rw [hparent]; exact Option.some_ne_none _)
    obtain ⟨number, hnode⟩ := hm.exists_directory hnames.of_append hparent
    rw [walk_append, ih hnames.of_append habove]
    change h.walk (site.location ++ names) [name] = _
    rw [walk_directory hnode ⟨hname.ne_dot, hname.ne_dots, hname.hostLength_le⟩, walk,
      List.append_assoc]

/-- Below what is no directory nothing is located. -/
theorem locate_error (hm : h.Mirrors site m) (hnames : site.Admits names)
    (hparent : m (Path.parent (site.path names)) ≠ some .directory) :
    ∃ e, h.locate (site.root.pushAll names) = .error e := by
  rw [hm.locate_eq hnames]
  cases names using List.reverseRecOn with
  | nil =>
    rw [Site.parent_path_nil] at hparent
    exact absurd hm.fits.tree.root hparent
  | append_singleton names name =>
    have hname := hnames.isName name (by simp)
    rw [Site.parent_path_concat site names hname.notMem] at hparent
    rw [walk_append]
    cases hwalk : h.walk site.location names with
    | error e => exact ⟨e, rfl⟩
    | ok l =>
      have hsteps : ∀ name ∈ names, IsStep name := by
        intro name hname
        have hname := hnames.of_append.isName name hname
        exact ⟨hname.ne_dot, hname.ne_dots, hname.hostLength_le⟩
      obtain rfl := walk_ok hsteps hwalk
      change ∃ e, h.walk (site.location ++ names) [name] = .error e
      rw [walk]
      cases hnode : h.node? (site.location ++ names) with
      | none => exact ⟨_, rfl⟩
      | some node =>
        cases node with
        | file number => exact ⟨_, rfl⟩
        | directory number =>
          rw [← hm.node names hnames.of_append, hnode] at hparent
          exact absurd rfl hparent

/-- **A path finds what the map has there.** -/
theorem find_some (hm : h.Mirrors site m) (hnames : site.Admits names) {node : Node}
    (hnode : m (site.path names) = some node) :
    ∃ node', h.node? (site.location ++ names) = some node' ∧ h.view node' = node ∧
      h.find (site.root.pushAll names) = .ok (site.location ++ names, node') := by
  have hparent := hm.fits.tree.parent _ (site.path_ne_root names)
    (by rw [hnode]; exact Option.some_ne_none _)
  have hlocate := hm.locate_of_parent hnames hparent
  rw [← hm.node names hnames, Option.map_eq_some_iff] at hnode
  obtain ⟨node', hnode', hview⟩ := hnode
  refine ⟨node', hnode', hview, ?_⟩
  have hopen := hnames.endsInSeparator
  rw [find, hlocate]
  cases node' <;> simp [bind, Except.bind, hnode', hopen]

/-- A free path of the site leads nowhere on the host. -/
theorem find_none (hm : h.Mirrors site m) (hnames : site.Admits names)
    (hnode : m (site.path names) = none) : ∃ e, h.find (site.root.pushAll names) = .error e := by
  by_cases hparent : m (Path.parent (site.path names)) = some .directory
  · rw [← hm.node names hnames, Option.map_eq_none_iff] at hnode
    rw [find, hm.locate_of_parent hnames hparent]
    exact ⟨.os Errno.noEntry, by simp [bind, Except.bind, hnode]⟩
  · obtain ⟨e, hlocate⟩ := hm.locate_error hnames hparent
    exact ⟨e, by rw [find, hlocate]; rfl⟩

end Mirrors
end HostSystem
end FlashVolume

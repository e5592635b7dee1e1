import FlashVolume.Proofs.Memory.Calls
import FlashVolume.Proofs.Path.Names
import FlashVolume.Proofs.Storage.Listing
import FlashVolume.Proofs.Text.Order
/-!
# The children of a directory

An open directory delivers its children in the order of their paths, and each read moves behind the
one that it delivers. They are looked for among the paths from the start of what is below the
directory up to the first that does not start with it; no path behind that one does
(`startingWith_eq_filter`), so none is missed. The children of a directory are the paths that are a
name behind that start (`mem_children`); that a path with that start can be a child's child is why
the name may have no separator.
-/

namespace FlashVolume

/-- The entry is that of a child of the directory: a path that is its name, in which there is no
separator, behind the directory and a separator. -/
def PathMap.IsChild (m : PathMap) (dir : String) (entry : Entry) : Prop :=
  entry.name ≠ "" ∧ '/' ∉ entry.name.toList ∧
    ∃ node, m (Path.below dir ++ entry.name) = some node ∧ entry = node.toEntry entry.name

/-- The entries are the children of the directory, in the order of the bytes of their names. -/
structure PathMap.IsListing (m : PathMap) (dir : String) (entries : List Entry) : Prop where
  increasing : entries.Pairwise fun entry entry' =>
    Text.encode entry.name < Text.encode entry'.name
  mem_iff : ∀ entry, entry ∈ entries ↔ m.IsChild dir entry

namespace MemoryVolume

variable {v : MemoryVolume}

/-! ### Paths with a start -/

/-- From the stem on, what starts with it comes first. -/
theorem takeWhile_isPrefixOf {stem : String} {nodes : List (String × Node)}
    (hsorted : nodes.Pairwise fun a b => compare a.1 b.1 = .lt)
    (hfrom : ∀ pair ∈ nodes, ¬pair.1 < stem) :
    nodes.takeWhile (fun pair => stem.toList.isPrefixOf pair.1.toList) =
      nodes.filter fun pair => stem.toList.isPrefixOf pair.1.toList := by
  induction nodes with
  | nil => rfl
  | cons first rest ih =>
    rw [List.pairwise_cons] at hsorted
    rw [List.forall_mem_cons] at hfrom
    by_cases hstart : stem.toList.isPrefixOf first.1.toList
    · simp only [List.takeWhile_cons, List.filter_cons, hstart, if_true, ih hsorted.2 hfrom.2]
    · simp only [List.takeWhile_cons, List.filter_cons, hstart, Bool.false_eq_true, if_false]
      rw [eq_comm, List.filter_eq_nil_iff]
      intro later hlater hlaterStart
      have hless : first.1 < later.1 := compare_lt_iff_lt.1 (hsorted.1 later hlater)
      rw [List.isPrefixOf_iff_prefix] at hstart hlaterStart
      exact hstart (Text.isPrefix_of_lt hfrom.1 hless hlaterStart)

/-- What comes before the stem does not start with it, and what follows is found. -/
theorem takeWhile_dropWhile {stem : String} {nodes : List (String × Node)}
    (hsorted : nodes.Pairwise fun a b => compare a.1 b.1 = .lt) :
    (nodes.dropWhile fun pair => (compare pair.1 stem).isLT).takeWhile
        (fun pair => stem.toList.isPrefixOf pair.1.toList) =
      nodes.filter fun pair => stem.toList.isPrefixOf pair.1.toList := by
  induction nodes with
  | nil => rfl
  | cons first rest ih =>
    by_cases hbefore : first.1 < stem
    · have hskip : (compare first.1 stem).isLT :=
        Ordering.isLT_iff_eq_lt.2 (compare_lt_iff_lt.2 hbefore)
      have hother : ¬stem.toList.isPrefixOf first.1.toList := fun hstart =>
        Text.not_lt_of_isPrefix (List.isPrefixOf_iff_prefix.1 hstart) hbefore
      simp only [List.dropWhile_cons, List.filter_cons, hskip, hother, if_true,
        Bool.false_eq_true, if_false]
      exact ih hsorted.of_cons
    · have hstop : ¬(compare first.1 stem).isLT := fun hskip =>
        hbefore (compare_lt_iff_lt.1 (Ordering.isLT_iff_eq_lt.1 hskip))
      simp only [List.dropWhile_cons, hstop, Bool.false_eq_true, if_false]
      refine takeWhile_isPrefixOf hsorted (List.forall_mem_cons.2 ⟨hbefore, ?_⟩)
      intro later hlater hless
      have hfirst : first.1 < later.1 :=
        compare_lt_iff_lt.1 ((List.pairwise_cons.1 hsorted).1 later hlater)
      exact hbefore (hfirst.trans hless)

/-- **The paths that start with a stem are found in one stretch.** -/
theorem startingWith_eq_filter (stem : String) (v : MemoryVolume) :
    v.startingWith stem =
      v.nodes.toList.filter fun pair => stem.toList.isPrefixOf pair.1.toList :=
  takeWhile_dropWhile Std.TreeMap.ordered_keys_toList

/-! ### Children -/

/-- A child is a name behind the start of what is below the directory. -/
theorem childName?_eq_some {dir path name : String} :
    childName? dir path = some name ↔
      path = Path.below dir ++ name ∧ name ≠ "" ∧ '/' ∉ name.toList := by
  rw [childName?, Option.filter_eq_some_iff, Text.stripStem?_eq_some, decide_eq_true_iff]

/-- **The children of a directory are the entries that are a name below it.** -/
theorem mem_children {dir path : String} {entry : Entry} :
    (path, entry) ∈ v.children dir ↔
      path = Path.below dir ++ entry.name ∧ v.pathMap.IsChild dir entry := by
  simp only [children, startingWith_eq_filter, List.mem_filterMap, List.mem_filter,
    Option.map_eq_some_iff, Prod.mk.injEq]
  constructor
  · rintro ⟨⟨p, node⟩, ⟨hp, -⟩, name, hname, rfl, rfl⟩
    obtain ⟨hpath, hne, hsep⟩ := childName?_eq_some.1 hname
    have hnode : v.pathMap p = some node := Std.TreeMap.mem_toList_iff_getElem?_eq_some.1 hp
    rw [PathMap.IsChild, Node.toEntry_name, ← hpath]
    exact ⟨rfl, hne, hsep, node, hnode, rfl⟩
  · rintro ⟨hpath, hne, hsep, node, hnode, hentry⟩
    have hstart : (Path.below dir).toList.isPrefixOf path.toList := by
      rw [List.isPrefixOf_iff_prefix, hpath, String.toList_append]
      exact List.prefix_append _ _
    rw [← hpath] at hnode
    exact ⟨(path, node), ⟨Std.TreeMap.mem_toList_iff_getElem?_eq_some.2 hnode, hstart⟩, entry.name,
      childName?_eq_some.2 ⟨hpath, hne, hsep⟩, rfl, hentry.symm⟩

/-- A node with a name below the directory is one of its children. -/
theorem mem_children_of_node {dir name : String} {node : Node} (hname : name ≠ "")
    (hsep : '/' ∉ name.toList) (hnode : v.pathMap (Path.below dir ++ name) = some node) :
    (Path.below dir ++ name, node.toEntry name) ∈ v.children dir := by
  rw [mem_children, PathMap.IsChild, Node.toEntry_name]
  exact ⟨rfl, hname, hsep, node, hnode, rfl⟩

/-- The children of a directory come in the order of their paths. -/
theorem pairwise_children (dir : String) (v : MemoryVolume) :
    (v.children dir).Pairwise fun a b => compare a.1 b.1 = .lt := by
  rw [children, startingWith_eq_filter, List.pairwise_filterMap]
  refine (Std.TreeMap.ordered_keys_toList.filter _).imp ?_
  rintro ⟨p, node⟩ ⟨q, node'⟩ hlt c hc d hd
  obtain ⟨_, -, rfl⟩ := Option.map_eq_some_iff.1 hc
  obtain ⟨_, -, rfl⟩ := Option.map_eq_some_iff.1 hd
  exact hlt

/-- What is shown below a path is what the map has there, each name once. -/
theorem isListing_children (v : MemoryVolume) (dir : String) :
    v.pathMap.IsListing dir ((v.children dir).map Prod.snd) := by
  constructor
  · rw [List.pairwise_map]
    refine (pairwise_children dir v).imp_of_mem ?_
    rintro ⟨p, entry⟩ ⟨p', entry'⟩ hmem hmem' hless
    obtain ⟨rfl, -⟩ := mem_children.1 hmem
    obtain ⟨rfl, -⟩ := mem_children.1 hmem'
    rw [compare_lt_iff_lt, Text.append_lt_append_iff] at hless
    exact Text.encode_lt hless
  · intro entry
    rw [List.mem_map]
    constructor
    · rintro ⟨⟨p, entry⟩, hmem, rfl⟩
      exact (mem_children.1 hmem).2
    · intro hchild
      exact ⟨(_, entry), mem_children.2 ⟨rfl, hchild⟩, rfl⟩

/-! ### Open directories -/

/-- Behind the first of the children that are left, the others are left. -/
theorem childrenAfter_next {d : OpenDirectory} {path : String} {entry : Entry}
    {rest : List (String × Entry)} (h : v.childrenAfter d = (path, entry) :: rest) :
    v.childrenAfter { d with last := some path } = rest := by
  have hsorted : (v.childrenAfter d).Pairwise fun a b => compare a.1 b.1 = .lt :=
    (pairwise_children d.path v).filter _
  have hafter : isAfter d.last path := by
    have hmem : (path, entry) ∈ v.childrenAfter d := by rw [h]; exact List.mem_cons_self
    exact (List.mem_filter.1 hmem).2
  rw [h, List.pairwise_cons] at hsorted
  rw [childrenAfter_some hafter, h, List.filter_cons_of_neg (by simp [isAfter_irrefl]),
    List.filter_eq_self]
  intro child hchild
  simp [isAfter, hsorted.1 child hchild]

/-- Nothing has been delivered of a directory at its start. -/
theorem childrenAfter_none (path : String) : v.childrenAfter ⟨path, none⟩ = v.children path :=
  List.filter_eq_self.2 fun _ _ => rfl

/-- A child has a name. -/
theorem isEnd_of_mem_childrenAfter {d : OpenDirectory} {child : String × Entry}
    (h : child ∈ v.childrenAfter d) : child.2.isEnd = false := by
  obtain ⟨-, hne, -⟩ := mem_children.1 (List.mem_filter.1 h).1
  simpa [Entry.isEnd] using hne

/-- A read that does not fail delivers the first of the children that are left, or the end mark. -/
theorem readdir_eq {d : OpenDirectory} {dir : DirHandle}
    (hdir : v.directories.get? dir.index = some d) :
    backend.answer (.readdir dir) v =
      if v.faults.failReaddirAt = some (v.counters.readdirs + 1) then
        (.error (injected "injected readdir failure"), v.beforeReaddir)
      else
        match v.childrenAfter d with
        | [] => (.ok .endMark, v.beforeReaddir)
        | (path, entry) :: _ => (.ok entry, { v.beforeReaddir with
            directories := v.directories.set dir.index { d with last := some path } }) := by
  have hdir : v.beforeReaddir.directories.get? dir.index = some d := hdir
  simp only [backend, answer, readdir, hdir]
  rfl

/-- **An open directory delivers the children that are left,** as long as there are no faults and no
other calls. -/
theorem delivers_childrenAfter {nodes : Std.TreeMap String Node} {d : OpenDirectory}
    {dir : DirHandle} (hv : v.IsReady) (hnodes : v.nodes = nodes)
    (hdir : v.directories.get? dir.index = some d) :
    backend.Delivers (fun w => w.IsReady ∧ w.nodes = nodes) dir
      ((v.childrenAfter d).map Prod.snd) v := by
  -- By induction on the children that are left, of which each read delivers one.
  generalize hleft : v.childrenAfter d = left
  induction left generalizing v d with
  | nil =>
    refine ⟨v.beforeReaddir, ?_, ⟨hv.mounted, hv.faults⟩, hnodes⟩
    rw [readdir_eq hdir, hleft, if_neg (by simp [hv.faults])]
  | cons child rest ih =>
    obtain ⟨path, entry⟩ := child
    have hend : entry.isEnd = false :=
      isEnd_of_mem_childrenAfter (by rw [hleft]; exact List.mem_cons_self)
    refine ⟨hend, { v.beforeReaddir with
      directories := v.directories.set dir.index { d with last := some path } }, ?_,
      ⟨⟨hv.mounted, hv.faults⟩, hnodes⟩, ?_⟩
    · rw [readdir_eq hdir, hleft, if_neg (by simp [hv.faults])]
    · exact ih ⟨hv.mounted, hv.faults⟩ hnodes (Handles.get?_set_self hdir)
        (childrenAfter_next hleft)

/-- Without faults, opening a directory removes no path before. -/
theorem nodes_beforeOpendir (hv : v.IsReady) : v.beforeOpendir.nodes = v.nodes := by
  simp only [beforeOpendir, hv.faults]

/-- Without injected removals nothing is lost when a directory is opened. -/
theorem pathMap_beforeOpendir (hv : v.IsReady) : v.beforeOpendir.pathMap = v.pathMap := by
  funext path
  rw [pathMap, pathMap, nodes_beforeOpendir hv]

/-- A directory is opened at its start. -/
theorem opendir_ready (hv : v.IsReady) {path : String} (hnode : v.pathMap path = some .directory) :
    ∃ dir v', backend.answer (.opendir path) v = (.ok dir, v') ∧ v'.IsReady ∧
      v'.nodes = v.nodes ∧ v'.directories.get? dir.index = some ⟨path, none⟩ := by
  have hnode : v.beforeOpendir.nodes[path]? = some .directory := by
    rw [nodes_beforeOpendir hv]
    exact hnode
  refine ⟨⟨v.beforeOpendir.directories.next⟩,
    { v.beforeOpendir with directories := v.beforeOpendir.directories.add ⟨path, none⟩ }, ?_,
    ⟨hv.mounted, hv.faults⟩, nodes_beforeOpendir hv, Handles.get?_add_next _ _⟩
  simp [backend, answer, opendir, whenMounted, hv.mounted, hnode]

/-- Only the nodes count for the children. -/
theorem children_congr {v v' : MemoryVolume} (h : v'.nodes = v.nodes) (dir : String) :
    v'.children dir = v.children dir := by
  rw [children, children, startingWith, startingWith, h]

/-- **A volume without faults serves the children of a directory,** until something else changes
them. -/
theorem serves_children (v : MemoryVolume) {path : String}
    (hnode : v.pathMap path = some .directory) :
    backend.Serves (fun w => w.IsReady ∧ w.nodes = v.nodes) path
      ((v.children path).map Prod.snd) := by
  constructor
  · rintro w ⟨hw, hnodes⟩
    have hnode' : w.pathMap path = some .directory := by
      rw [pathMap, hnodes]
      exact hnode
    obtain ⟨dir, w', hopen, hw', hnodes', hdir⟩ := opendir_ready hw hnode'
    have hdelivers := delivers_childrenAfter hw' (hnodes'.trans hnodes) hdir
    rw [childrenAfter_none, children_congr (hnodes'.trans hnodes)] at hdelivers
    exact ⟨dir, w', hopen, hdelivers⟩
  · rintro dir w ⟨hw, hnodes⟩
    exact ⟨⟨hw.mounted, hw.faults⟩, hnodes⟩

end MemoryVolume
end FlashVolume

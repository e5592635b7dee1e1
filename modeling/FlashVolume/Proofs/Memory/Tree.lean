import FlashVolume.Proofs.Footprints
import FlashVolume.Proofs.Memory.Changes
import FlashVolume.Proofs.Memory.Steps
/-!
# The tree of a volume

The backend in memory of section 10.2 of the specification.

A volume in memory keeps its paths in one flat map, and nothing in the map says that they form a
tree. `IsTree` does: the root is a directory, and the parent of every other entry is one. Each
change that a call can make keeps it, except for removing the root, which the emptiness test of
`unlink` lets pass: what it looks for below the root are paths that start with two separators. So a
run of calls and operations on paths at or below the mount point leads from a tree to a tree.

`Kept` compares two maps: what is in the first is in the second, and of the same kind. Building
keeps the map before in the map after, and clearing the map after in the map before.
-/

namespace FlashVolume

/-- What kind of entry a node is. -/
def Node.kind : Node → EntryKind
  | file _ => .file
  | directory => .directory

namespace PathMap

/-- The paths form a tree: every entry but the root has a parent that is a directory. The empty
text is its own parent and cannot be reached from the root. -/
structure IsTree (m : PathMap) : Prop where
  root : m "/" = some .directory
  empty : m "" = none
  parent : ∀ path, path ≠ "/" → m path ≠ none → m (Path.parent path) = some .directory

/-- What is in the first map is in the second, and of the same kind. -/
def Kept (m m' : PathMap) : Prop :=
  ∀ path node, m path = some node → ∃ node', m' path = some node' ∧ node'.kind = node.kind

/-- A map keeps what it has. -/
theorem Kept.refl (m : PathMap) : m.Kept m :=
  fun _ node h => ⟨node, h, rfl⟩

/-- What is kept twice is kept. -/
theorem Kept.trans {m₁ m₂ m₃ : PathMap} (h : m₁.Kept m₂) (h' : m₂.Kept m₃) : m₁.Kept m₃ := by
  intro path node hnode
  obtain ⟨node₂, hnode₂, hkind⟩ := h path node hnode
  obtain ⟨node₃, hnode₃, hkind'⟩ := h' path node₂ hnode₂
  exact ⟨node₃, hnode₃, hkind'.trans hkind⟩

namespace IsTree

variable {m : PathMap}

/-- **Every directory on the way to an entry is there.** -/
theorem directory_above (h : m.IsTree) {dir path : String} (hdir : dir ≠ "")
    (hbelow : (dir ++ "/").toList <+: path.toList) (hpath : m path ≠ none) :
    m dir = some .directory := by
  -- By induction on the length of the path, which its parent makes shorter.
  induction hlength : path.toList.length using Nat.strongRecOn generalizing path with
  | ind length ih =>
    have hroot : path ≠ "/" := by
      rintro rfl
      have hle := hbelow.length_le
      have hsome : 0 < dir.toList.length := List.length_pos_iff.2 (by simpa using hdir)
      rw [String.toList_append, List.length_append] at hle
      omega
    have hparent := h.parent path hroot hpath
    rcases Path.parent_of_below hdir hbelow with hin | ⟨hbelow', hless⟩
    · rw [← hin]
      exact hparent
    · refine ih _ (hlength ▸ hless) hbelow' ?_ rfl
      rw [hparent]
      exact Option.some_ne_none _

/-- Nothing is below a file. -/
theorem not_occupied (h : m.IsTree) {path : String} {data : Bytes}
    (hfile : m path = some (.file data)) : ¬m.Occupied path := by
  rintro ⟨below, hbelow, hpresent⟩
  have hpath : path ≠ "" := by
    rintro rfl
    rw [h.empty] at hfile
    cases hfile
  have hdir := h.directory_above hpath hbelow hpresent
  rw [hfile] at hdir
  cases hdir

/-- A new entry of a directory. -/
theorem create (h : m.IsTree) {path : String} (node : Node) (hfree : m path = none)
    (hparent : m (Path.parent path) = some .directory) : (m.update path (some node)).IsTree := by
  have hroot : "/" ≠ path := by
    rintro rfl
    rw [h.root] at hfree
    cases hfree
  have hempty : "" ≠ path := by
    rintro rfl
    have hself : Path.parent "" = "" := rfl
    rw [hself, hfree] at hparent
    cases hparent
  -- A free path is no parent.
  have hkept : ∀ p, m (Path.parent p) = some .directory →
      (m.update path (some node)) (Path.parent p) = some .directory := by
    intro p hp
    rw [update, if_neg, hp]
    rintro hp'
    rw [hp', hfree] at hp
    cases hp
  refine ⟨?_, ?_, ?_⟩
  · rw [update, if_neg hroot, h.root]
  · rw [update, if_neg hempty, h.empty]
  · intro p hp hpresent
    by_cases hpath : p = path
    · subst hpath
      exact hkept p hparent
    · rw [update, if_neg hpath] at hpresent
      exact hkept p (h.parent p hp hpresent)

/-- New contents of a file. -/
theorem alter (h : m.IsTree) {path : String} {old : Bytes} (new : Bytes)
    (hfile : m path = some (.file old)) : (m.update path (some (.file new))).IsTree := by
  have hkept : ∀ p, m p = some .directory → (m.update path (some (.file new))) p =
      some .directory := by
    intro p hp
    rw [update, if_neg, hp]
    rintro rfl
    rw [hfile] at hp
    cases hp
  refine ⟨hkept "/" h.root, ?_, ?_⟩
  · rw [update, if_neg, h.empty]
    rintro rfl
    rw [h.empty] at hfile
    cases hfile
  · intro p hp hpresent
    refine hkept _ (h.parent p hp ?_)
    by_cases hpath : p = path
    · rw [hpath, hfile]
      exact Option.some_ne_none _
    · rwa [update, if_neg hpath] at hpresent

/-- An entry that is removed, other than the root, with nothing below it. -/
theorem remove (h : m.IsTree) {path : String} (hroot : path ≠ "/") {node : Node}
    (hnode : m path = some node) (hempty : node = .directory → ¬m.Occupied path) :
    (m.update path none).IsTree := by
  have hnotEmpty : path ≠ "" := by
    rintro rfl
    rw [h.empty] at hnode
    cases hnode
  refine ⟨?_, ?_, ?_⟩
  · rw [update, if_neg (Ne.symm hroot), h.root]
  · rw [update, if_neg (Ne.symm hnotEmpty), h.empty]
  · intro p hp hpresent
    have hpath : p ≠ path := by
      rintro rfl
      exact hpresent (update_self m p none)
    rw [update, if_neg hpath] at hpresent
    have hparent := h.parent p hp hpresent
    rw [update, if_neg, hparent]
    -- An entry of the directory would be below it.
    rintro rfl
    rw [hparent] at hnode
    cases hnode
    exact hempty rfl ⟨p, Path.below_parent hnotEmpty hroot, hpresent⟩

end IsTree

namespace Change

variable {α : Type} {c : Call α} {m m' : PathMap}

/-- **A call keeps the tree,** unless it removes the root. -/
theorem isTree (h : m.Change c m') (hroot : ¬c.Removes "/") (hm : m.IsTree) : m'.IsTree := by
  cases h with
  | same => exact hm
  | create path node hcall hfree hparent hnode => exact hm.create node hfree hparent
  | alter path old new hcall hfile => exact hm.alter new hfile
  | remove path node hcall hnode hempty =>
    have hpath : path ≠ "/" := by
      rintro rfl
      exact hroot hcall
    exact hm.remove hpath hnode hempty

/-- What removes no entry keeps the map before in the map after. -/
theorem kept (h : m.Change c m') (hc : c.Builds) : m.Kept m' := by
  cases h with
  | same => exact .refl m
  | create path node hcall hfree hparent hnode =>
    intro p old hold
    have hp : p ≠ path := by
      rintro rfl
      rw [hfree] at hold
      cases hold
    exact ⟨old, by rw [update, if_neg hp, hold], rfl⟩
  | alter path old new hcall hfile =>
    intro p node hnode
    by_cases hp : p = path
    · subst hp
      rw [hfile] at hnode
      cases hnode
      exact ⟨_, update_self m p _, rfl⟩
    · exact ⟨node, by rw [update, if_neg hp, hnode], rfl⟩
  | remove path node hcall => exact absurd hcall (hc path)

/-- What creates no entry keeps the map after in the map before. -/
theorem kept_before (h : m.Change c m') (hc : ∀ path, ¬c.Creates path) : m'.Kept m := by
  cases h with
  | same => exact .refl m
  | create path node hcall => exact absurd hcall (hc path)
  | alter path old new hcall hfile =>
    intro p node hnode
    by_cases hp : p = path
    · subst hp
      rw [update_self] at hnode
      cases hnode
      exact ⟨_, hfile, rfl⟩
    · rw [update, if_neg hp] at hnode
      exact ⟨node, hnode, rfl⟩
  | remove path node hcall hnode hempty =>
    intro p old hold
    by_cases hp : p = path
    · subst hp
      rw [update_self] at hold
      cases hold
    · rw [update, if_neg hp] at hold
      exact ⟨old, hold, rfl⟩

end Change
end PathMap

namespace MemoryVolume

/-- The paths form a tree, and entries do not disappear behind the back of the calls. -/
structure IsOrderly (v : MemoryVolume) : Prop where
  undisturbed : v.Undisturbed
  tree : v.pathMap.IsTree

variable {v : MemoryVolume} {α : Type}

/-! ### Calls and programs -/

/-- A call that does not remove the root leaves the volume orderly. -/
theorem IsOrderly.answer (hv : v.IsOrderly) {c : Call α} (hc : ¬c.Removes "/") :
    (backend.answer c v).2.IsOrderly :=
  ⟨hv.undisturbed.answer c, (answer_change hv.undisturbed c).isTree hc hv.tree⟩

/-- An orderly volume leads to one that is orderly as well, and the two maps are related. -/
def Leads (K : PathMap → PathMap → Prop) (v v' : MemoryVolume) : Prop :=
  v.IsOrderly → v'.IsOrderly ∧ K v.pathMap v'.pathMap

/-- A relation that holds across every change by an allowed call holds across a program of allowed
calls, which keeps the tree. -/
theorem IsOrderly.run {K : PathMap → PathMap → Prop} (hrefl : ∀ m, K m m)
    (htrans : ∀ m₁ m₂ m₃, K m₁ m₂ → K m₂ m₃ → K m₁ m₃)
    {allowed : {β : Type} → Call β → Prop}
    (hroot : ∀ {β : Type} (c : Call β), allowed c → ¬c.Removes "/")
    (hcall : ∀ {β : Type} (c : Call β) m m', allowed c → m.Change c m' → K m m')
    {p : Program α} (hp : p.Only allowed) (hv : v.IsOrderly) :
    (p.run backend v).2.IsOrderly ∧ K v.pathMap (p.run backend v).2.pathMap := by
  refine Program.Only.run_rel (R := Leads K) ?_ ?_ ?_ hp v hv
  · intro v hv
    exact ⟨hv, hrefl _⟩
  · intro v₁ v₂ v₃ h h' hv
    obtain ⟨hv₂, hkept⟩ := h hv
    obtain ⟨hv₃, hkept'⟩ := h' hv₂
    exact ⟨hv₃, htrans _ _ _ hkept hkept'⟩
  · intro β c v hc hv
    exact ⟨hv.answer (hroot c hc), hcall c _ _ hc (answer_change hv.undisturbed c)⟩

/-- A program that removes no entry keeps every entry. -/
theorem IsOrderly.run_builds (hv : v.IsOrderly) {p : Program α} (hp : p.Only Call.Builds) :
    (p.run backend v).2.IsOrderly ∧ v.pathMap.Kept (p.run backend v).2.pathMap :=
  hv.run PathMap.Kept.refl (fun _ _ _ => .trans) (fun _ hc => hc "/")
    (fun _ _ _ hc hchange => hchange.kept hc) hp

/-- A program that creates no entry and spares the root adds no entry. -/
theorem IsOrderly.run_clears (hv : v.IsOrderly) {p : Program α} (hp : p.Only Call.Clears) :
    (p.run backend v).2.IsOrderly ∧ (p.run backend v).2.pathMap.Kept v.pathMap :=
  hv.run (K := fun m m' => m'.Kept m) PathMap.Kept.refl (fun _ _ _ h h' => h'.trans h)
    (fun _ hc => hc.2) (fun _ _ _ hc hchange => hchange.kept_before hc.1) hp

/-! ### Runs -/

/-- **One step keeps the tree,** and either every entry before it or, of the entries after it, none
is new. -/
theorem IsOrderly.step {config : Config} (hconfig : config.validate = .ok ()) {step : Step}
    (hstep : step.IsAllowed config.mountPoint) (hv : v.IsOrderly) :
    (step.apply v).IsOrderly ∧
      (v.pathMap.Kept (step.apply v).pathMap ∨ (step.apply v).pathMap.Kept v.pathMap) := by
  cases step with
  | call c =>
    have hroot : ¬c.Removes "/" := fun hremoves =>
      Config.ne_root_of_isWithin hconfig (hstep "/" (Call.path?_of_removes hremoves)) rfl
    have hchange := answer_change hv.undisturbed c
    refine ⟨hv.answer hroot, ?_⟩
    rcases Call.builds_or_clears hroot with hbuilds | hclears
    · exact .inl (hchange.kept hbuilds)
    · exact .inr (hchange.kept_before hclears.1)
  | request machine options request =>
    by_cases hdeletes : request.Deletes
    · have hroot := Config.ne_root_of_isWithin hconfig hstep
      have hrun := hv.run_clears (request.operation_clears options hdeletes hroot)
      exact ⟨hrun.1, .inr hrun.2⟩
    · have hrun := hv.run_builds (request.operation_builds options hdeletes)
      exact ⟨hrun.1, .inl hrun.2⟩
  | gate state mountPoint =>
    have hrun := hv.run_builds (MountState.mount_builds mountPoint state)
    exact ⟨hrun.1, .inl hrun.2⟩
  | faults faults => exact ⟨⟨hstep, hv.tree⟩, .inl (.refl _)⟩

/-- The map behind a new volume. -/
theorem pathMap_new (mountPoint : String) :
    (new mountPoint).pathMap =
      (PathMap.update (fun _ => none) "/" (some .directory)).update mountPoint
        (some .directory) := by
  funext p
  have hcompare : ∀ q : String, compare q p = .eq ↔ p = q := by
    intro q
    rw [Std.LawfulEqCmp.compare_eq_iff_eq, eq_comm]
  simp only [pathMap, new, PathMap.update, Std.TreeMap.getElem?_insert, hcompare]
  rfl

/-- **A new volume is a tree.** -/
theorem isOrderly_new {config : Config} (hconfig : config.validate = .ok ()) :
    (new config.mountPoint).IsOrderly := by
  have hroot : PathMap.IsTree (PathMap.update (fun _ => none) "/" (some .directory)) := by
    refine ⟨PathMap.update_self _ _ _, rfl, ?_⟩
    intro path hpath hpresent
    exact absurd (if_neg hpath) hpresent
  refine ⟨rfl, ?_⟩
  rw [pathMap_new]
  refine hroot.create .directory ?_ ?_
  · exact if_neg (Config.ne_root_of_isWithin hconfig (.inl rfl))
  · rw [Config.parent_mountPoint hconfig]
    exact PathMap.update_self _ _ _

/-- Steps keep the tree. -/
theorem IsOrderly.after {config : Config} (hconfig : config.validate = .ok ()) {steps : List Step}
    (hsteps : ∀ step ∈ steps, step.IsAllowed config.mountPoint) (hv : v.IsOrderly) :
    (v.after steps).IsOrderly := by
  induction steps generalizing v with
  | nil => exact hv
  | cons step steps ih =>
    have hfirst := hv.step hconfig (hsteps step List.mem_cons_self)
    exact ih (fun s hs => hsteps s (List.mem_cons_of_mem step hs)) hfirst.1

/-- **The paths of a volume form a tree.**  Whatever steps a new volume goes through, the root is a
directory, every other entry is in a directory, and nothing is below a file; and no single step
makes a directory of a file or a file of a directory. -/
theorem isTree_after {config : Config} (hconfig : config.validate = .ok ()) (steps : List Step)
    (hsteps : ∀ step ∈ steps, step.IsAllowed config.mountPoint) :
    let v := (new config.mountPoint).after steps
    v.pathMap.IsTree ∧
      (∀ path data, v.pathMap path = some (.file data) → ¬v.pathMap.Occupied path) ∧
      ∀ step : Step, step.IsAllowed config.mountPoint → ∀ path node node',
        v.pathMap path = some node → (step.apply v).pathMap path = some node' →
          node'.kind = node.kind := by
  intro v
  have hv : v.IsOrderly := (isOrderly_new hconfig).after hconfig hsteps
  refine ⟨hv.tree, fun path data hfile => hv.tree.not_occupied hfile, ?_⟩
  intro step hstep path node node' hnode hnode'
  obtain ⟨-, hkept | hkept⟩ := hv.step hconfig hstep
  · obtain ⟨other, hother, hkind⟩ := hkept path node hnode
    rw [hnode'] at hother
    cases hother
    exact hkind
  · obtain ⟨other, hother, hkind⟩ := hkept path node' hnode'
    rw [hnode] at hother
    cases hother
    exact hkind.symm

/-- Two handles are open on a file when it is removed with its directory and comes back as a
directory. -/
theorem isTree_after_replaced :
    let machine : Allocator := .upTo 1024 16
    let steps : List Step := [.gate {} "/lfs", .request machine {} (.makePath "/lfs/d" true),
      .call (.open "/lfs/d/f" .replacing), .call (.open "/lfs/d/f" .appending),
      .faults { writeLimit := some 1 }, .request machine {} (.deleteMatching "/lfs/d" "f"),
      .call (.mkdir "/lfs/d/f"), .call (.write ⟨0⟩ [1, 2]), .call (.unlink "/lfs/d")]
    Config.validate {} = .ok () ∧ (∀ step ∈ steps, step.IsAllowed "/lfs") ∧
      ((new "/lfs").after steps).pathMap.IsTree := by
  intro machine steps
  have hvalid : Config.validate {} = .ok () := by decide
  have hsteps : ∀ step ∈ steps, step.IsAllowed "/lfs" := by
    have hcall : ∀ {α : Type} {c : Call α} {path : String}, c.path? = some path →
        Path.IsWithin "/lfs" path → (Step.call c).IsAllowed "/lfs" := by
      intro α c path hnamed hwithin p hp
      rw [hnamed] at hp
      cases hp
      exact hwithin
    have hmount : Path.IsWithin "/lfs" "/lfs" := .inl rfl
    have hdir : Path.IsWithin "/lfs" "/lfs/d" := by decide
    have hfile : Path.IsWithin "/lfs" "/lfs/d/f" := by decide
    simp only [steps, List.forall_mem_cons]
    exact ⟨hmount, hdir, hcall rfl hfile, hcall rfl hfile, rfl, hdir, hcall rfl hfile, nofun,
      hcall rfl hdir, nofun⟩
  exact ⟨hvalid, hsteps, (isTree_after hvalid steps hsteps).1⟩

end MemoryVolume
end FlashVolume

import FlashVolume.Proofs.Host.Calls
/-!
# Realms

The *realm* of a volume is the part of the host that the volume may see: the locations that its root
leads through, the place of the root and what stands below it, and the contents of the files there.

Two hosts are `Alike` in a realm if they agree about it, and what they do not agree about is not
open. A change `Spares` what is outside if it leaves it as it was. The lemmas here say that paths
that pass through the realm find the same on both hosts, and that the same change in the realm
leaves them alike.
-/

namespace FlashVolume

namespace Handles

variable {α : Type} {t : Handles α} {P : α → Prop} {a : α}

/-- Every open handle has such a record. -/
def All (t : Handles α) (P : α → Prop) : Prop :=
  ∀ i a, t.get? i = some a → P a

/-- A table with no handle has nothing to satisfy. -/
theorem all_empty : ({} : Handles α).All P := by
  intro i a h
  rw [get?_empty] at h
  cases h

/-- A new handle adds its own value. -/
theorem All.add (h : t.All P) (ha : P a) : (t.add a).All P := by
  intro i b hb
  have hi : i < t.next + 1 := by simpa using lt_next_of_get? hb
  by_cases hnew : i = t.next
  · rw [hnew, get?_add_next, Option.some.injEq] at hb
    exact hb ▸ ha
  · rw [get?_add_of_lt (by omega)] at hb
    exact h i b hb

/-- Setting a handle replaces one value. -/
theorem All.set (h : t.All P) (i : Nat) (ha : P a) : (t.set i a).All P := by
  intro j b hb
  by_cases hij : i = j
  · subst hij
    have hi : i < t.next := by simpa using lt_next_of_get? hb
    simp only [get?, Handles.set, List.getElem?_set_self hi, Option.join_some,
      Option.some.injEq] at hb
    exact hb ▸ ha
  · exact h j b (by rwa [get?_set_of_ne hij] at hb)

/-- Closing a handle drops its value. -/
theorem All.close (h : t.All P) (i : Nat) : (t.close i).All P := by
  intro j b hb
  by_cases hij : i = j
  · rw [hij, get?_close_self] at hb
    cases hb
  · exact h j b (by rwa [get?_close_of_ne hij] at hb)

end Handles

namespace HostSystem

variable {h : HostSystem} {l : List String}

/-- A free location is not the root of the host. -/
theorem ne_nil_of_free (hfree : h.node? l = none) : l ≠ [] := by
  rintro rfl
  simp [node?] at hfree

/-- The host with a new directory at a location. -/
def build (l : List String) (h : HostSystem) : HostSystem :=
  { h with
    nodes := h.nodes.insert l (.directory h.nextDirectory)
    nextDirectory := h.nextDirectory + 1 }

/-- A directory that is built stands at its location, and nothing else changes. -/
theorem node?_build (hl : l ≠ []) (h : HostSystem) (l' : List String) :
    (h.build l).node? l' = if l' = l then some (.directory h.nextDirectory) else h.node? l' :=
  node?_insert rfl hl l'

/-- The host with nothing at a location. -/
def remove (l : List String) (h : HostSystem) : HostSystem :=
  { h with nodes := h.nodes.erase l }

/-- The root of the tree cannot be removed. -/
theorem node?_remove (l : List String) (h : HostSystem) (l' : List String) :
    (h.remove l).node? l' = if l' = l ∧ l' ≠ [] then none else h.node? l' := by
  by_cases hempty : l' = []
  · simp [node?, hempty]
  · by_cases hsame : l' = l
    · simp [node?, remove, hempty, ← hsame]
    · simp [node?, remove, hempty, hsame, Std.TreeMap.getElem?_erase, Ne.symm hsame]

/-- A file that is new has the contents that a file has that is not there. -/
theorem data_createFile (h : HostSystem) (l : List String) (k : Nat) :
    (h.createFile l).2.data k = h.data k := by
  rw [HostSystem.data, HostSystem.data, createFile]
  by_cases hk : k < h.contents.length
  · rw [List.getElem?_append_left hk]
  · rw [List.getElem?_append_right (Nat.not_lt.1 hk), List.getElem?_eq_none (Nat.not_lt.1 hk)]
    cases k - h.contents.length <;> rfl

/-- A file that is created stands at its location, and nothing else changes. -/
theorem node?_createFile (hfree : l ≠ []) (h : HostSystem) (l' : List String) :
    (h.createFile l).2.node? l' =
      if l' = l then some (.file h.contents.length) else h.node? l' :=
  node?_insert rfl hfree l'

/-- New bytes are those of their own file, and the others keep theirs. -/
theorem data_setData_eq (h : HostSystem) (number k : Nat) (data : Bytes) :
    (h.setData number data).data k =
      if k = number ∧ number < h.contents.length then data else h.data k := by
  by_cases hnumber : number < h.contents.length
  · simp only [data_setData hnumber, hnumber, and_true]
  · rw [if_neg fun hk => hnumber hk.2, setData, HostSystem.data, HostSystem.data,
      List.set_eq_of_length_le (Nat.not_lt.1 hnumber)]

/-- The names in a directory are taken in the order of their locations. -/
theorem pairwise_childNames (h : HostSystem) (l : List String) :
    (h.childNames l).Pairwise fun name name' => compare (l ++ [name]) (l ++ [name']) = .lt := by
  rw [childNames, List.pairwise_filterMap]
  refine Std.TreeMap.ordered_keys.imp ?_
  intro key key' hkeys name hname name' hname'
  rwa [name_eq_some.1 hname, name_eq_some.1 hname'] at hkeys

/-- Directories with the same names show them in the same order on hosts that arrange them alike. -/
theorem names_congr {h₁ h₂ : HostSystem} (harrange : h₁.traits.arrange l = h₂.traits.arrange l)
    (hnode : ∀ name, h₁.node? (l ++ [name]) = h₂.node? (l ++ [name])) :
    h₁.names l = h₂.names l := by
  have hperm : (h₁.childNames l).Perm (h₂.childNames l) := by
    rw [List.perm_ext_iff_of_nodup (nodup_childNames h₁ l) (nodup_childNames h₂ l)]
    intro name
    rw [mem_childNames, mem_childNames, hnode]
  have hsame : h₁.childNames l = h₂.childNames l := by
    refine hperm.eq_of_pairwise ?_ (pairwise_childNames h₁ l) (pairwise_childNames h₂ l)
    intro name name' _ _ hlt hgt
    exact absurd (hlt.symm.trans (Std.OrientedCmp.gt_iff_lt.2 hgt)) (by decide)
  rw [names, names, harrange, hsame]

end HostSystem

/-- The part of a host that a volume may see. -/
structure Realm where
  workingDirectory : List String
  root : HostPath
  /-- The numbers of the files whose contents belong to it. -/
  owns : Nat → Prop

namespace Realm

/-- Where the host starts to walk a path. -/
def start (r : Realm) (path : HostPath) : List String :=
  if path.isAbsolute then [] else r.workingDirectory

/-- The location that a path names, if it names one. -/
def target (r : Realm) (path : HostPath) : List String :=
  HostPath.lead (r.start path) path.parts

/-- The place of the root, or a location below it. -/
def Inside (r : Realm) (l : List String) : Prop :=
  r.target r.root <+: l

/-- The root leads through the location. -/
def OnWay (r : Realm) (l : List String) : Prop :=
  ∃ before, before <+: r.root.parts ∧ l = HostPath.lead (r.start r.root) before

/-- The location is one that the volume may look at. -/
def Reaches (r : Realm) (l : List String) : Prop :=
  r.OnWay l ∨ r.Inside l

/-- The path leads through the realm only. -/
def Passes (r : Realm) (path : HostPath) : Prop :=
  ∀ before, before <+: path.parts → r.Reaches (HostPath.lead (r.start path) before)

variable {r : Realm} {path : HostPath}

/-- What a path leads to is within reach. -/
theorem Passes.reaches_target (hp : r.Passes path) : r.Reaches (r.target path) :=
  hp _ (List.prefix_refl _)

/-- The root directory is within reach. -/
theorem passes_root (r : Realm) : r.Passes r.root :=
  fun before hbefore => .inl ⟨before, hbefore, rfl⟩

/-- Where a path leads through, its parent leads through. -/
theorem leads_parent {P : List String → Prop} {above : HostPath}
    (hp : ∀ before, before <+: path.parts → P (HostPath.lead (r.start path) before))
    (h : path.parent? = some above) {before : List String} (hbefore : before <+: above.parts) :
    P (HostPath.lead (r.start above) before) := by
  obtain ⟨habsolute, hthrough⟩ := HostPath.exists_prefix_of_parent h
  obtain ⟨through, hprefix, hlead⟩ := hthrough before hbefore
  rw [start, habsolute, ← hlead]
  exact hp through hprefix

/-- The directory above a path is within reach if the path is. -/
theorem Passes.parent {above : HostPath} (hp : r.Passes path) (h : path.parent? = some above) :
    r.Passes above :=
  fun _ hbefore => leads_parent hp h hbefore

section Names

variable {names : List String} (hempty : ∀ name ∈ names, name ≠ "")
  (hdots : ∀ name ∈ names, name ≠ "." ∧ name ≠ "..")
include hempty

/-- Names pushed behind the root directory start where it does. -/
theorem start_pushAll : r.start (r.root.pushAll names) = r.start r.root := by
  rw [start, start, HostPath.isAbsolute_pushAll hempty]

include hdots

/-- Names below the root lead to locations below its place. -/
theorem target_pushAll : r.target (r.root.pushAll names) = r.target r.root ++ names := by
  rw [target, start_pushAll hempty, HostPath.parts_pushAll hempty, HostPath.lead_append,
    HostPath.lead_names hdots]
  rfl

/-- **Names below the root lead through the realm only.** -/
theorem passes_pushAll : r.Passes (r.root.pushAll names) := by
  intro before hbefore
  rw [start_pushAll hempty]
  rw [HostPath.parts_pushAll hempty] at hbefore
  -- The way has not come to the root yet, or it has passed it.
  rcases List.prefix_or_prefix_of_prefix hbefore (List.prefix_append _ names) with h | ⟨more, rfl⟩
  · exact .inl ⟨before, h, rfl⟩
  · have hmore : more <+: names := (List.prefix_append_right_inj _).1 hbefore
    rw [HostPath.lead_append, HostPath.lead_names fun name hname => hdots name (hmore.subset hname)]
    exact .inr (List.prefix_append _ _)

end Names

/-! ### What is outside -/

/-- The second host has outside of the realm what the first one has, except for directories that it
has in addition, at locations of some kind. -/
structure Spares (r : Realm) (built : List String → Prop) (h h' : HostSystem) : Prop where
  node : ∀ l, ¬r.Inside l → h'.node? l = h.node? l ∨
    built l ∧ h.node? l = none ∧ ∃ number, h'.node? l = some (.directory number)
  data : ∀ k, ¬r.owns k → h'.data k = h.data k

namespace Spares

variable {built : List String → Prop} {h h' h'' : HostSystem} {l : List String}

/-- A system with the same nodes and contents is spared. -/
theorem of_eq (hnodes : h'.nodes = h.nodes) (hcontents : h'.contents = h.contents) :
    r.Spares built h h' where
  node l _ := .inl (by rw [HostSystem.node?_congr hnodes])
  data k _ := by rw [HostSystem.data, HostSystem.data, hcontents]

/-- Doing nothing spares everything. -/
theorem refl (h : HostSystem) : r.Spares built h h :=
  of_eq rfl rfl

/-- What has been built in addition stays. -/
theorem trans (hs : r.Spares built h h') (hs' : r.Spares built h' h'') : r.Spares built h h'' where
  node l hl := by
    rcases hs'.node l hl with hsame | ⟨hbuilt, hfree, number, hnew⟩
    · rw [hsame]
      exact hs.node l hl
    · refine .inr ⟨hbuilt, ?_, number, hnew⟩
      rcases hs.node l hl with hsame | ⟨-, hfree', -⟩
      · rwa [← hsame]
      · exact hfree'
  data k hk := (hs'.data k hk).trans (hs.data k hk)

/-- Building a directory in both keeps them alike. -/
theorem build (hfree : h.node? l = none) (hl : r.Inside l ∨ built l) :
    r.Spares built h (h.build l) where
  node l' hout := by
    rw [HostSystem.node?_build (HostSystem.ne_nil_of_free hfree)]
    by_cases hsame : l' = l
    · subst hsame
      exact .inr ⟨hl.resolve_left hout, hfree, h.nextDirectory, if_pos rfl⟩
    · exact .inl (if_neg hsame)
  data _ _ := rfl

/-- Creating a file in both keeps them alike. -/
theorem createFile (hfree : h.node? l = none) (hl : r.Inside l) :
    r.Spares built h (h.createFile l).2 where
  node l' hout := by
    rw [HostSystem.node?_createFile (HostSystem.ne_nil_of_free hfree)]
    exact .inl (if_neg fun hsame : l' = l => hout (hsame ▸ hl))
  data k _ := HostSystem.data_createFile h l k

/-- Removing the same location from both keeps them alike. -/
theorem remove (hl : r.Inside l) : r.Spares built h (h.remove l) where
  node l' hout := by
    rw [HostSystem.node?_remove]
    exact .inl (if_neg fun hsame : l' = l ∧ l' ≠ [] => hout (hsame.1 ▸ hl))
  data _ _ := rfl

/-- Giving a file the same bytes in both keeps them alike. -/
theorem setData {number : Nat} (howns : r.owns number) (data : Bytes) :
    r.Spares built h (h.setData number data) where
  node l _ := .inl rfl
  data k hk := by
    rw [HostSystem.data_setData_eq, if_neg]
    rintro ⟨rfl, -⟩
    exact hk howns

end Spares

/-! ### Hosts that are alike -/

/-- What is open belongs to the realm, and so do the files there and the files to come. -/
structure Within (r : Realm) (h : HostSystem) : Prop where
  workingDirectory : h.workingDirectory = r.workingDirectory
  number : ∀ l k, r.Inside l → h.node? l = some (.file k) → r.owns k
  fresh : ∀ k, h.contents.length ≤ k → r.owns k
  files : h.files.All fun f => r.owns f.number
  directories : h.directories.All fun d => r.Inside d.location

/-- The hosts agree about the realm. -/
structure Alike (r : Realm) (h₁ h₂ : HostSystem) : Prop where
  within : r.Within h₁
  workingDirectory : h₁.workingDirectory = h₂.workingDirectory
  arrange : ∀ l, r.Inside l → h₁.traits.arrange l = h₂.traits.arrange l
  volumeStats : ∀ l, r.Inside l → h₁.traits.volumeStats l = h₂.traits.volumeStats l
  node : ∀ l, r.Reaches l → h₁.node? l = h₂.node? l
  data : ∀ k, r.owns k → h₁.data k = h₂.data k
  count : h₁.contents.length = h₂.contents.length
  nextDirectory : h₁.nextDirectory = h₂.nextDirectory
  files : h₁.files = h₂.files
  directories : h₁.directories = h₂.directories

variable {h h₁ h₂ : HostSystem} {l : List String}

/-- Below what is inside everything is. -/
theorem Inside.append (hl : r.Inside l) (names : List String) : r.Inside (l ++ names) :=
  hl.trans (List.prefix_append l names)

/-- A path that names a location names its target. -/
theorem target_of_locate (hw : h.workingDirectory = r.workingDirectory)
    (hl : h.locate path = .ok l) : l = r.target path := by
  obtain ⟨hnul, hlength, hempty⟩ := HostSystem.locate_ok hl
  rw [HostSystem.locate_eq_walk hnul hlength hempty, hw] at hl
  exact HostSystem.eq_lead_of_walk hl

/-- A path that is located is located at its target. -/
theorem Within.target_of_locate (hw : r.Within h) (hl : h.locate path = .ok l) :
    l = r.target path :=
  Realm.target_of_locate hw.workingDirectory hl

/-- A node that is found is found at its target. -/
theorem Within.target_of_find (hw : r.Within h) {node : HostNode}
    (hf : h.find path = .ok (l, node)) : l = r.target path ∧ h.node? l = some node := by
  rw [HostSystem.find] at hf
  cases hl : h.locate path with
  | error e => simp [hl, bind, Except.bind] at hf
  | ok l' =>
    simp only [hl, bind, Except.bind] at hf
    obtain rfl := hw.target_of_locate hl
    cases hnode : h.node? (r.target path) with
    | none => simp [hnode] at hf
    | some found =>
      rw [hnode] at hf
      cases found with
      | directory number => cases hf; exact ⟨rfl, hnode⟩
      | file number =>
        dsimp only at hf
        split at hf
        · cases hf
        · cases hf; exact ⟨rfl, hnode⟩

namespace Alike

variable (ha : r.Alike h₁ h₂)
include ha

/-! #### Both find the same -/

/-- Inside, both have the same nodes. -/
theorem inside (hl : r.Inside l) : h₁.node? l = h₂.node? l :=
  ha.node l (.inr hl)

/-- A path within reach is located at the same place in both. -/
theorem locate (hp : r.Passes path) : h₁.locate path = h₂.locate path := by
  have hwalk : h₁.walk (r.start path) path.parts = h₂.walk (r.start path) path.parts :=
    HostSystem.walk_congr fun before hbefore => ha.node _ (hp before hbefore)
  rw [start] at hwalk
  rw [HostSystem.locate, HostSystem.locate, ← ha.workingDirectory, ha.within.workingDirectory,
    hwalk]

/-- A path within reach leads to the same node in both. -/
theorem find (hp : r.Passes path) : h₁.find path = h₂.find path := by
  rw [HostSystem.find, HostSystem.find, ← ha.locate hp]
  cases hl : h₁.locate path with
  | error e => rfl
  | ok l =>
    obtain rfl := ha.within.target_of_locate hl
    simp only [bind, Except.bind, ha.node _ hp.reaches_target]

/-- A path within reach leads to the same node in both, wherever it stands. -/
theorem lookup (hp : r.Passes path) : h₁.lookup path = h₂.lookup path := by
  rw [HostSystem.lookup, HostSystem.lookup, ha.find hp]

/-- A path within reach leads to a directory in both or in none. -/
theorem isDirectory (hp : r.Passes path) : h₁.isDirectory path = h₂.isDirectory path := by
  rw [HostSystem.isDirectory, HostSystem.isDirectory, ha.lookup hp]

/-- A path within reach leads to a file in both or in none. -/
theorem isFile (hp : r.Passes path) : h₁.isFile path = h₂.isFile path := by
  rw [HostSystem.isFile, HostSystem.isFile, ha.lookup hp]

/-- A directory inside lists the same names in both. -/
theorem names (hl : r.Inside l) : h₁.names l = h₂.names l :=
  HostSystem.names_congr (ha.arrange l hl) fun name => ha.inside (hl.append [name])

/-- A node inside has the same entry in both. -/
theorem entry (hl : r.Inside l) {node : HostNode} (hnode : h₁.node? l = some node)
    (name : String) : h₁.entry name node = h₂.entry name node := by
  cases node with
  | directory number => rfl
  | file number =>
    rw [HostSystem.entry, HostSystem.entry, ha.data number (ha.within.number l number hl hnode)]

/-- A path within reach has the same entry in both. -/
theorem map_entry_lookup (hp : r.Passes path) (hin : r.Inside (r.target path)) (name : String) :
    (h₁.lookup path).map (h₁.entry name) = (h₂.lookup path).map (h₂.entry name) := by
  rw [HostSystem.lookup, HostSystem.lookup, ← ha.find hp]
  cases hf : h₁.find path with
  | error e => rfl
  | ok found =>
    obtain ⟨l, node⟩ := found
    obtain ⟨rfl, hnode⟩ := ha.within.target_of_find hf
    exact congrArg Except.ok (ha.entry hin hnode name)

/-- A directory inside stands in both or in none. -/
theorem stands {d : HostDirectory} (hd : r.Inside d.location) : h₁.stands d = h₂.stands d := by
  rw [HostSystem.stands, HostSystem.stands, ha.inside hd]

/-- A directory inside has the same names left to show in both. -/
theorem namesLeft {d : HostDirectory} (hd : r.Inside d.location) :
    h₁.namesLeft d = h₂.namesLeft d := by
  rw [HostSystem.namesLeft, HostSystem.namesLeft, ha.stands hd, ha.names hd]

/-! #### The same change -/

/-- Building a directory in both keeps them alike. -/
theorem build (hfree : h₁.node? l = none) : r.Alike (h₁.build l) (h₂.build l) := by
  have hl := HostSystem.ne_nil_of_free hfree
  refine { ha with within := { ha.within with number := ?_ }, node := ?_, nextDirectory := ?_ }
  · intro l' k hin hfile
    rw [HostSystem.node?_build hl] at hfile
    split at hfile
    · cases hfile
    · exact ha.within.number l' k hin hfile
  · intro l' hl'
    rw [HostSystem.node?_build hl h₁, HostSystem.node?_build hl h₂, ha.node l' hl',
      ha.nextDirectory]
  · exact congrArg (· + 1) ha.nextDirectory

/-- Creating a file in both keeps them alike. -/
theorem createFile (hfree : h₁.node? l = none) :
    r.Alike (h₁.createFile l).2 (h₂.createFile l).2 := by
  have hl := HostSystem.ne_nil_of_free hfree
  refine { ha with within := { ha.within with number := ?_, fresh := ?_ }, node := ?_, data := ?_,
                   count := ?_ }
  · intro l' k hin hfile
    rw [HostSystem.node?_createFile hl] at hfile
    split at hfile
    · cases hfile
      exact ha.within.fresh _ (Nat.le_refl _)
    · exact ha.within.number l' k hin hfile
  · intro k hk
    refine ha.within.fresh k ?_
    simp only [HostSystem.createFile, List.length_append] at hk
    omega
  · intro l' hl'
    rw [HostSystem.node?_createFile hl h₁, HostSystem.node?_createFile hl h₂, ha.node l' hl',
      ha.count]
  · intro k hk
    rw [HostSystem.data_createFile, HostSystem.data_createFile, ha.data k hk]
  · simp only [HostSystem.createFile, List.length_append, ha.count]

/-- Removing the same location from both keeps them alike. -/
theorem remove (l : List String) : r.Alike (h₁.remove l) (h₂.remove l) := by
  refine { ha with within := { ha.within with number := ?_ }, node := ?_ }
  · intro l' k hin hfile
    rw [HostSystem.node?_remove] at hfile
    split at hfile
    · cases hfile
    · exact ha.within.number l' k hin hfile
  · intro l' hl'
    rw [HostSystem.node?_remove l h₁, HostSystem.node?_remove l h₂, ha.node l' hl']

/-- Giving a file the same bytes in both keeps them alike. -/
theorem setData (number : Nat) (data : Bytes) :
    r.Alike (h₁.setData number data) (h₂.setData number data) := by
  have hlength : ∀ h : HostSystem, (h.setData number data).contents.length = h.contents.length :=
    fun h => List.length_set
  refine { ha with within := { ha.within with fresh := ?_ }, data := ?_, count := ?_ }
  · rw [hlength]
    exact ha.within.fresh
  · intro k hk
    rw [HostSystem.data_setData_eq, HostSystem.data_setData_eq, ha.data k hk, ha.count]
  · rw [hlength, hlength, ha.count]

/-- Open files that belong inside may be open in both. -/
theorem withFiles {files : Handles HostFile} (hfiles : files.All fun f => r.owns f.number) :
    r.Alike { h₁ with files := files } { h₂ with files := files } :=
  { ha with within := { ha.within with files := hfiles }, files := rfl }

/-- Open directories that are inside may be open in both. -/
theorem withDirectories {directories : Handles HostDirectory}
    (hdirectories : directories.All fun d => r.Inside d.location) :
    r.Alike { h₁ with directories := directories } { h₂ with directories := directories } :=
  { ha with within := { ha.within with directories := hdirectories }, directories := rfl }

end Alike

end Realm
end FlashVolume

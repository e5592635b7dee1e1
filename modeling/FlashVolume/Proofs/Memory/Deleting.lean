import FlashVolume.Proofs.Memory.Steps
import FlashVolume.Proofs.Passes
/-!
# Files that are removed together

Sections 4.4 and 8 of the specification: `delete_matching` with every file removed.

`deleteMatching` finds the files of a directory whose name contains a text, and removes them one by
one in the order of their names. It stops at the first that does not resolve or cannot be removed:

| removal | what stops it |
| --- | --- |
| of any entries, on a mounted volume | a name that is too long, a path that is too long, a fault |
| of what was found, without faults | a name or a path that is too long |

So what is removed is a first part of what was found (`run_deleteEach`), and the names decide how
long that part is (`deleteMatching_removes`).
-/

universe u

namespace FlashVolume

/-- A list in order is cut at the first on which a test fails. In the first part are those that
have none before them, and are none themselves, on which it fails. -/
theorem mem_front_iff {α : Type} {before : α → α → Prop} {test : α → Prop}
    (hasymm : ∀ a b, before a b → ¬before b a) {front rest : List α}
    (h : (front ++ rest).Pairwise before) (hfront : ∀ a ∈ front, test a)
    (hrest : ∀ a ∈ rest.head?, ¬test a) (a : α) :
    a ∈ front ↔ a ∈ front ++ rest ∧ ∀ b ∈ front ++ rest, ¬before a b → test b := by
  obtain ⟨-, hordered, hbetween⟩ := List.pairwise_append.1 h
  constructor
  · intro ha
    refine ⟨List.mem_append_left rest ha, fun b hb hnot => ?_⟩
    rcases List.mem_append.1 hb with hb | hb
    · exact hfront b hb
    · exact absurd (hbetween a ha b hb) hnot
  · rintro ⟨ha, hall⟩
    refine (List.mem_append.1 ha).resolve_right fun ha => ?_
    cases rest with
    | nil => cases ha
    | cons first rest =>
      have hnot : ¬before a first := by
        rcases List.mem_cons.1 ha with rfl | ha
        · exact fun hself => hasymm a a hself hself
        · exact hasymm first a ((List.pairwise_cons.1 hordered).1 a ha)
      exact hrest first rfl (hall first (by simp) hnot)

namespace Path

/-- Neither the name nor its path in the directory is too long. -/
def Fits (dir name : String) (config : Config) : Prop :=
  Text.byteLength name ≤ config.maxFileNameLength ∧
    config.AllowsPath (Text.byteLength (dir ++ "/" ++ name))

instance (dir name : String) (config : Config) : Decidable (Fits dir name config) :=
  inferInstanceAs (Decidable (_ ∧ _))

end Path

/-- A file that is directly in the directory, and whose name contains the text. -/
def PathMap.IsMatch (m : PathMap) (dir name : String) (entry : Entry) : Prop :=
  m.IsChild dir entry ∧ Directory.Matches name .file entry

/-- Below a directory that is not written with a separator at its end comes one. -/
theorem Path.below_of_not_separator {dir : String} (h : dir.toList.getLast? ≠ some '/') :
    Path.below dir = dir ++ "/" :=
  if_neg h

/-- What matches is a file at the path of its name. -/
theorem PathMap.IsMatch.file {m : PathMap} {dir name : String} {entry : Entry}
    (h : m.IsMatch dir name entry) (hdir : dir.toList.getLast? ≠ some '/') :
    entry.name ≠ "" ∧ ∃ data, m (dir ++ "/" ++ entry.name) = some (.file data) := by
  obtain ⟨⟨hname, -, node, hnode, hentry⟩, hkind, -⟩ := h
  rw [Path.below_of_not_separator hdir] at hnode
  refine ⟨hname, ?_⟩
  cases node with
  | directory =>
    rw [hentry] at hkind
    cases hkind
  | file data => exact ⟨data, hnode⟩

/-- There is one entry for a name. -/
theorem PathMap.IsChild.eq_of_name {m : PathMap} {dir : String} {entry entry' : Entry}
    (h : m.IsChild dir entry) (h' : m.IsChild dir entry') (hname : entry.name = entry'.name) :
    entry = entry' := by
  obtain ⟨-, -, node, hnode, hentry⟩ := h
  obtain ⟨-, -, node', hnode', hentry'⟩ := h'
  rw [hname] at hnode hentry
  cases hnode.symm.trans hnode'
  exact hentry.trans hentry'.symm

/-- What matches without some paths matches with them, unless it is at one of them. -/
theorem PathMap.isMatch_without {m : PathMap} {paths : List String} {dir name : String}
    {entry : Entry} (hdir : dir.toList.getLast? ≠ some '/') :
    (m.without paths).IsMatch dir name entry ↔
      m.IsMatch dir name entry ∧ dir ++ "/" ++ entry.name ∉ paths := by
  rw [IsMatch, IsMatch, IsChild, IsChild, Path.below_of_not_separator hdir, without]
  by_cases hpath : dir ++ "/" ++ entry.name ∈ paths
  · simp [hpath]
  · simp [hpath]

/-- The entries are the files that match, up to the first in the order of names that does not
resolve. -/
def PathMap.IsFront (m : PathMap) (dir name : String) (config : Config) (entries : List Entry) :
    Prop :=
  ∀ entry, entry ∈ entries ↔ m.IsMatch dir name entry ∧
    ∀ other, m.IsMatch dir name other →
      ¬Text.encode entry.name < Text.encode other.name → Path.Fits dir other.name config

/-- What a second removal took would have been taken by the first one. -/
theorem PathMap.IsFront.eq_nil_of_without {m : PathMap} {dir name : String} {config : Config}
    {removed again : List Entry} (hslash : dir.toList.getLast? ≠ some '/')
    (h : m.IsFront dir name config removed)
    (h' : (m.without (removed.map fun entry => dir ++ "/" ++ entry.name)).IsFront dir name config
      again) : again = [] := by
  rw [List.eq_nil_iff_forall_not_mem]
  intro entry hentry
  obtain ⟨hmatch, hall⟩ := (h' entry).1 hentry
  rw [isMatch_without hslash] at hmatch
  refine hmatch.2 (List.mem_map.2 ⟨entry, (h entry).2 ⟨hmatch.1, ?_⟩, rfl⟩)
  intro other hother hbehind
  by_cases hgone : other ∈ removed
  · exact ((h other).1 hgone).2 other hother (List.lt_irrefl _)
  · refine hall other ?_ hbehind
    rw [isMatch_without hslash]
    refine ⟨hother, fun hpath => hgone ?_⟩
    obtain ⟨twin, htwin, heq⟩ := List.mem_map.1 hpath
    have hname : twin.name = other.name := by simpa [String.append_right_inj] using heq
    exact ((h twin).1 htwin).1.1.eq_of_name hother.1 hname ▸ htwin

namespace MemoryVolume

open Operation

variable {v : MemoryVolume} {dir : String}

/-! ### Removing one after the other -/

/-- A file is removed, unless this is the removal that is to fail. -/
theorem unlink_file (hmounted : v.mounted = true) {path : String} {data : Bytes}
    (hfile : v.pathMap path = some (.file data)) :
    ∃ v', v'.mounted = true ∧ v'.faults = v.faults ∧
      v'.counters.unlinks = v.counters.unlinks + 1 ∧
      if v.faults.failUnlinkAt = some (v.counters.unlinks + 1) then
        (∃ e, backend.answer (.unlink path) v = (.error e, v')) ∧ v'.pathMap = v.pathMap
      else
        backend.answer (.unlink path) v = (.ok (), v') ∧
          v'.pathMap = v.pathMap.update path none := by
  have hfile : v.nodes[path]? = some (.file data) := hfile
  by_cases hfault : v.faults.failUnlinkAt = some (v.counters.unlinks + 1)
  · refine ⟨{ v with counters := { v.counters with unlinks := v.counters.unlinks + 1 } }, hmounted,
      rfl, rfl, ?_⟩
    rw [if_pos hfault]
    refine ⟨⟨injected "injected unlink failure", ?_⟩, rfl⟩
    simp only [backend, answer, unlink, whenMounted, hmounted, if_true, hfault]
  · refine ⟨{ v with
        nodes := v.nodes.erase path
        counters := { v.counters with unlinks := v.counters.unlinks + 1 } }, hmounted, rfl, rfl, ?_⟩
    rw [if_neg hfault]
    refine ⟨?_, pathMap_erase rfl⟩
    simp only [backend, answer, unlink, whenMounted, hmounted, if_true, hfault, if_false, hfile]

/-- **Files are removed one after the other,** until one does not resolve or its removal is to
fail. -/
theorem run_deleteEach (config : Config) (hmounted : v.mounted = true) (hdir : dir ≠ "")
    {entries : List Entry} (hdistinct : (entries.map Entry.name).Nodup)
    (hfiles : ∀ entry ∈ entries, entry.name ≠ "" ∧
      ∃ data, v.pathMap (dir ++ "/" ++ entry.name) = some (.file data)) (deleted : Nat) :
    ∃ removed rest answer v', entries = removed ++ rest ∧
      runOn backend (Directory.deleteEach dir config entries deleted) v = (answer, v') ∧
      Directory.Reports config deleted removed answer ∧
      v'.mounted = true ∧ v'.faults = v.faults ∧
      v'.pathMap = v.pathMap.without (removed.map fun entry => dir ++ "/" ++ entry.name) ∧
      (∀ entry ∈ removed, Path.Fits dir entry.name config) ∧
      ∀ entry ∈ rest.head?, ¬Path.Fits dir entry.name config ∨
        v.faults.failUnlinkAt = some (v.counters.unlinks + removed.length + 1) := by
  -- By induction on the entries; a removal leaves the other files in place.
  induction entries generalizing v deleted with
  | nil =>
    refine ⟨[], [], _, v, rfl, rfl, .inl rfl, hmounted, rfl, ?_, by simp, by simp⟩
    funext p
    exact (if_neg List.not_mem_nil).symm
  | cons entry rest ih =>
    obtain ⟨⟨hname, data, hfile⟩, hrest⟩ := List.forall_mem_cons.1 hfiles
    obtain ⟨hnew, hdistinct⟩ := List.nodup_cons.1 hdistinct
    have hkept : v.pathMap = v.pathMap.without [] := by
      funext p
      exact (if_neg List.not_mem_nil).symm
    by_cases hfits : Path.Fits dir entry.name config
    · have hresolve := Path.resolve_of_fits hdir hname hfits.1 hfits.2
      obtain ⟨v₁, hmounted₁, hfaults₁, hunlinks, hunlink⟩ := unlink_file hmounted hfile
      have hstep : runOn backend (Directory.deleteEach dir config (entry :: rest) deleted) v =
          match backend.answer (.unlink (dir ++ "/" ++ entry.name)) v with
          | (.error _, v') => (.ok deleted, v')
          | (.ok _, v') =>
            runOn backend (Directory.deleteEach dir config rest (deleted + 1)) v' := by
        rw [Directory.deleteEach, hresolve]
        dsimp only
        rw [runOn_bind, runOn_attempt]
        rcases backend.answer (.unlink (dir ++ "/" ++ entry.name)) v with ⟨_ | _, v'⟩ <;> rfl
      by_cases hfault : v.faults.failUnlinkAt = some (v.counters.unlinks + 1)
      · rw [if_pos hfault] at hunlink
        obtain ⟨⟨e, hanswer⟩, hmap⟩ := hunlink
        rw [hanswer] at hstep
        exact ⟨[], entry :: rest, _, v₁, rfl, hstep, .inl rfl, hmounted₁, hfaults₁,
          hmap.trans hkept, by simp, fun other hother => .inr hfault⟩
      · rw [if_neg hfault] at hunlink
        obtain ⟨hanswer, hmap⟩ := hunlink
        rw [hanswer] at hstep
        have hrest' : ∀ other ∈ rest, other.name ≠ "" ∧
            ∃ data, v₁.pathMap (dir ++ "/" ++ other.name) = some (.file data) := by
          intro other hother
          obtain ⟨hname', data', hfile'⟩ := hrest other hother
          have hne : dir ++ "/" ++ other.name ≠ dir ++ "/" ++ entry.name := by
            intro heq
            have hsame : other.name = entry.name := by simpa [String.append_right_inj] using heq
            exact hnew (hsame ▸ List.mem_map_of_mem hother)
          refine ⟨hname', data', ?_⟩
          rw [hmap, PathMap.update, if_neg hne, hfile']
        obtain ⟨removed, left, answer, v', hsplit, hrun, hreports, hmounted', hfaults', hmap', hall,
          hstop⟩ := ih hmounted₁ hdistinct hrest' (deleted + 1)
        obtain ⟨bound, hbound⟩ := Path.exists_bound_of_resolve hresolve
        refine ⟨entry :: removed, left, answer, v', by rw [hsplit, List.cons_append],
          hstep.trans hrun, hreports.cons hbound entry, hmounted', hfaults'.trans hfaults₁, ?_,
          List.forall_mem_cons.2 ⟨hfits, hall⟩, ?_⟩
        · rw [hmap', hmap, List.map_cons, PathMap.without_cons]
        · intro other hother
          rcases hstop other hother with hlong | hfail
          · exact .inl hlong
          · rw [hfaults₁, hunlinks] at hfail
            refine .inr (hfail.trans (congrArg some ?_))
            rw [List.length_cons]
            omega
    · obtain ⟨e, hresolve⟩ := Path.exists_resolve_error hdir hname hfits
      obtain ⟨answer, hrun, hreports⟩ : ∃ answer,
          runOn backend (Directory.deleteEach dir config (entry :: rest) deleted) v = (answer, v) ∧
            Directory.Reports config deleted [] answer := by
        rw [Directory.deleteEach, hresolve]
        cases e with
        | overflow => exact ⟨_, rfl, .inr ⟨rfl, rfl, Path.maxAbsPathLength_of_resolve hresolve⟩⟩
        | _ => exact ⟨_, rfl, .inl rfl⟩
      refine ⟨[], entry :: rest, answer, v, rfl, hrun, hreports, hmounted, rfl, hkept, by simp, ?_⟩
      intro other hother
      obtain rfl := Option.mem_some_iff.1 hother
      exact .inl hfits

/-! ### Volumes without faults -/

/-- A call leaves a mounted volume without faults as such. -/
theorem IsReady.answer (hv : v.IsReady) {α : Type} (c : Call α) :
    (backend.answer c v).2.IsReady := by
  cases c with
  | mount =>
    have hfaults : v.faults.failMounts = 0 := by rw [hv.faults]
    simp only [backend, MemoryVolume.answer, mount, hfaults]
    exact ⟨rfl, hv.faults⟩
  | _ =>
    simp only [backend, MemoryVolume.answer, statvfs, MemoryVolume.open, openAt, MemoryVolume.read,
      MemoryVolume.write, MemoryVolume.seek, MemoryVolume.truncate, close, MemoryVolume.stat,
      opendir, beforeOpendir, readdir, closedir, mkdir, unlink, whenMounted]
    repeat' split
    all_goals exact ⟨hv.mounted, hv.faults⟩

/-- A volume that is ready stays so through every program. -/
theorem IsReady.run (hv : v.IsReady) {α : Type} (p : Program α) : (p.run backend v).2.IsReady :=
  Program.Only.run_rel (R := fun v v' => v.IsReady → v'.IsReady) (fun _ hv => hv)
    (fun _ _ _ h h' hv => h' (h hv)) (fun c _ _ hv => hv.answer c) p.only_true v hv

/-- **Operations leave a mounted volume without faults as such.** -/
theorem IsReady.after (hv : v.IsReady) (machine : Allocator) (config : Config)
    (requests : List Request) :
    (v.after (requests.map (Step.request machine config))).IsReady := by
  induction requests generalizing v with
  | nil => exact hv
  | cons request requests ih => exact ih (hv.run _)

/-! ### Removing what matches -/

/-- Entries in the order of their names have different names. -/
theorem nodup_names {entries : List Entry}
    (h : entries.Pairwise fun entry entry' => Text.encode entry.name < Text.encode entry'.name) :
    (entries.map Entry.name).Nodup := by
  refine List.pairwise_map.2 (h.imp fun {entry entry'} hless heq => ?_)
  rw [heq] at hless
  exact List.lt_irrefl _ hless

/-- The files that match, in the order of their names. -/
theorem exists_matches (v : MemoryVolume) (dir name : String) :
    ∃ found : List Entry,
      ((v.children dir).map Prod.snd).filter (Directory.Matches name .file ·) = found ∧
      (found.Pairwise fun entry entry' => Text.encode entry.name < Text.encode entry'.name) ∧
      (found.map Entry.name).Nodup ∧
      ∀ entry, entry ∈ found ↔ v.pathMap.IsMatch dir name entry := by
  have hlisting := v.isListing_children dir
  have hordered := hlisting.increasing.filter (Directory.Matches name .file ·)
  refine ⟨_, rfl, hordered, nodup_names hordered, fun entry => ?_⟩
  rw [List.mem_filter, hlisting.mem_iff, decide_eq_true_iff]
  rfl

/-- **What is removed on a volume without faults:** the files that match, up to the first in the
order of names that does not resolve, if there is room for the entries of all that match. -/
theorem runOn_deleteMatching [Allocator] (hv : v.IsReady) (hdir : v.pathMap dir = some .directory)
    (hsome : dir ≠ "") (hslash : dir.toList.getLast? ≠ some '/') (name : String)
    (config : Config) {found : List Entry}
    (hfound : ((v.children dir).map Prod.snd).filter (Directory.Matches name .file ·) = found) :
    ∃ (removed : List Entry) (answer : Except Error Nat) (v' : MemoryVolume),
      runOn backend (Directory.deleteMatching dir name config) v = (answer, v') ∧
      Directory.Reports config 0 removed answer ∧ v'.IsReady ∧ (removed.map Entry.name).Nodup ∧
      v'.pathMap = v.pathMap.without (removed.map fun entry => dir ++ "/" ++ entry.name) ∧
      (Allocator.grantsEntries found.length = false → removed = []) ∧
      (Allocator.grantsEntries found.length = true →
        v.pathMap.IsFront dir name config removed) := by
  obtain ⟨listed, hsame, hordered, hdistinct, hmem⟩ := exists_matches v dir name
  obtain rfl : found = listed := hfound.symm.trans hsame
  obtain ⟨v₁, hfind, hv₁, hnodes⟩ := (serves_children v hdir).run_find ⟨hv, rfl⟩ hsome name .file
  rw [hfound] at hfind
  have hmap : v₁.pathMap = v.pathMap := by
    funext p
    rw [pathMap, pathMap, hnodes]
  have hheld := Directory.held_sublist found
  have hfiles : ∀ entry ∈ Directory.held found, entry.name ≠ "" ∧
      ∃ data, v₁.pathMap (dir ++ "/" ++ entry.name) = some (.file data) := by
    intro entry hentry
    rw [hmap]
    exact ((hmem entry).1 (hheld.subset hentry)).file hslash
  obtain ⟨removed, rest, answer, v', hsplit, hrun, hreports, hmounted, hfaults, hmap', hall,
    hstop⟩ := run_deleteEach config hv₁.mounted hsome (hdistinct.sublist (hheld.map _)) hfiles 0
  rw [hmap] at hmap'
  have hempty : dir.isEmpty = false := by simpa using hsome
  refine ⟨removed, answer, v', ?_, hreports, ⟨hmounted, hfaults.trans hv₁.faults⟩, ?_, hmap', ?_,
    ?_⟩
  · simp [Directory.deleteMatching, Directory.requireDirectory, hempty, hfind, hrun]
  · refine hdistinct.sublist ((List.Sublist.trans ?_ hheld).map _)
    rw [hsplit]
    exact List.sublist_append_left removed rest
  · intro hrefused
    rw [Directory.held_eq_nil (.inr hrefused)] at hsplit
    exact (List.append_eq_nil_iff.1 hsplit.symm).1
  · intro hroom entry
    have hhead : ∀ other ∈ rest.head?, ¬Path.Fits dir other.name config := by
      intro other hother
      refine (hstop other hother).resolve_right ?_
      simp [hv₁.faults]
    rw [Directory.held, if_pos hroom] at hsplit
    rw [hsplit] at hordered hmem
    rw [mem_front_iff (fun a b hless hless' => List.lt_asymm hless hless') hordered hall hhead,
      hmem]
    exact and_congr_right fun _ => forall_congr' fun other => by rw [hmem]

/-- **Removing all files of a directory whose name contains a text.**  On a volume without faults,
and under a configuration that has a longest path, those are removed that have none among them, in
the order of their names, and are none themselves, whose name or path is too long; so all are
removed if no name and no path is too long. Their number is the answer. Every other entry stays as
it is, and a second removal finds nothing that it removes.

All this if there is room for the entries of the files that match; if not, none is removed. -/
theorem deleteMatching_removes [Allocator] (hv : v.IsReady)
    (hdir : v.pathMap dir = some .directory) (hsome : dir ≠ "")
    (hslash : dir.toList.getLast? ≠ some '/') (name : String) {config : Config}
    (hsum : config.sizeSum ≤ Word.maxUnsigned64) :
    ∃ found : List Entry, (found.map Entry.name).Nodup ∧
      (∀ entry, entry ∈ found ↔ v.pathMap.IsMatch dir name entry) ∧
      (Allocator.grantsEntries found.length = false → ∃ v' : MemoryVolume,
        runOn backend (Directory.deleteMatching dir name config) v = (.ok 0, v') ∧
          v'.pathMap = v.pathMap) ∧
      (Allocator.grantsEntries found.length = true →
        ∃ (removed : List Entry) (v' v'' : MemoryVolume),
          runOn backend (Directory.deleteMatching dir name config) v = (.ok removed.length, v') ∧
          (removed.map Entry.name).Nodup ∧
          (∀ entry, entry ∈ removed ↔ v.pathMap.IsMatch dir name entry ∧
            ∀ other, v.pathMap.IsMatch dir name other →
              ¬Text.encode entry.name < Text.encode other.name →
              Path.Fits dir other.name config) ∧
          v'.pathMap = v.pathMap.without (removed.map fun entry => dir ++ "/" ++ entry.name) ∧
          v'.IsReady ∧
          runOn backend (Directory.deleteMatching dir name config) v' = (.ok 0, v'') ∧
          v''.pathMap = v'.pathMap) := by
  have hwithout : ∀ m : PathMap, m.without [] = m :=
    fun m => funext fun p => if_neg List.not_mem_nil
  obtain ⟨found, hfound, -, hdistinct, hmatches⟩ := exists_matches v dir name
  obtain ⟨removed, answer, v', hrun, hreports, hv', hremoved, hmap, hnone, hfront⟩ :=
    runOn_deleteMatching hv hdir hsome hslash name config hfound
  obtain rfl := hreports.eq_ok hsum
  rw [Nat.zero_add] at hrun
  refine ⟨found, hdistinct, hmatches, ?_, ?_⟩
  · intro hrefused
    obtain rfl := hnone hrefused
    exact ⟨v', hrun, hmap.trans (hwithout _)⟩
  · intro hroom
    have hkept : v'.pathMap dir = some .directory := by
      rw [hmap, PathMap.without, if_neg, hdir]
      rw [List.mem_map]
      rintro ⟨entry, -, heq⟩
      have hlength := congrArg String.length heq
      have hseparator : "/".length = 1 := rfl
      simp only [String.length_append] at hlength
      omega
    obtain ⟨again, answer', v'', hrun', hreports', -, -, hmap', hnone', hfront'⟩ :=
      runOn_deleteMatching hv' hkept hsome hslash name config rfl
    obtain rfl := hreports'.eq_ok hsum
    have hagain : again = [] := by
      cases hgrants : Allocator.grantsEntries (((v'.children dir).map Prod.snd).filter
          (Directory.Matches name .file ·)).length with
      | false => exact hnone' hgrants
      | true =>
        have hsecond := hfront' hgrants
        rw [hmap] at hsecond
        exact (hfront hroom).eq_nil_of_without hslash hsecond
    subst hagain
    exact ⟨removed, v', v'', hrun, hremoved, hfront hroom, hmap, hv', hrun',
      hmap'.trans (hwithout _)⟩

/-- Where names have up to seven bytes, a file with a longer one stops the removal: what comes
before it is removed. -/
theorem deleteMatching_removes_before :
    letI : Allocator := .upTo 1024 16
    let config : Config := { maxFileNameSize := 8 }
    let v := (newMounted "/lfs").after (List.map (Step.request (.upTo 1024 16) config)
      [.file (.write "/lfs/a.log" [1]), .file (.write "/lfs/boot.log" [2]),
        .file (.write "/lfs/c.log" [3]), .makePath "/lfs/aa.log" false])
    v.IsReady ∧ v.pathMap "/lfs" = some .directory ∧ config.sizeSum ≤ Word.maxUnsigned64 ∧
      ∃ v', runOn backend (Directory.deleteMatching "/lfs" ".log" config) v = (.ok 1, v') ∧
        v'.pathMap = v.pathMap.without ["/lfs/a.log"] := by
  intro config v
  let _ : Allocator := .upTo 1024 16
  have hv : v.IsReady := IsReady.after ⟨rfl, rfl⟩ _ _ _
  have hdir : v.pathMap "/lfs" = some .directory := by decide +kernel
  have hsum : config.sizeSum ≤ Word.maxUnsigned64 := by decide
  obtain ⟨found, hdistinct, hmatches, -, hgranted⟩ :=
    deleteMatching_removes hv hdir (by decide) (by decide) ".log" hsum
  obtain ⟨listed, hlisted, -, hdistinct', hmatches'⟩ := exists_matches v "/lfs" ".log"
  have hthree : listed = [.ofFile "a.log" 1, .ofFile "boot.log" 1, .ofFile "c.log" 1] := by
    rw [← hlisted]
    decide +kernel
  have hmem : ∀ entry, entry ∈ found ↔ entry ∈ listed :=
    fun entry => (hmatches entry).trans (hmatches' entry).symm
  have hlength : found.length = 3 := by
    have hperm := (List.perm_ext_iff_of_nodup hdistinct.of_map hdistinct'.of_map).2 hmem
    rw [hperm.length_eq, hthree]
    rfl
  obtain ⟨removed, v', -, hrun, -, hfront, hmap, -⟩ := hgranted (by rw [hlength]; decide)
  have hanswer : (runOn backend (Directory.deleteMatching "/lfs" ".log" config) v).1 = .ok 1 := by
    decide +kernel
  rw [hrun, Except.ok.injEq] at hanswer
  obtain ⟨first, rfl⟩ := List.length_eq_one_iff.1 hanswer
  have hfirst : Entry.ofFile "a.log" 1 ∈ [first] := by
    refine (hfront _).2 ⟨(hmatches' _).1 (by rw [hthree]; exact List.mem_cons_self), ?_⟩
    intro other hother hbehind
    have hother := (hmatches' other).2 hother
    rw [hthree] at hother
    simp only [List.mem_cons, List.not_mem_nil, or_false] at hother
    rcases hother with rfl | rfl | rfl
    · decide
    · exact absurd (by decide) hbehind
    · exact absurd (by decide) hbehind
  obtain rfl := List.mem_singleton.1 hfirst
  exact ⟨hv, hdir, hsum, v', hrun, hmap⟩

/-- **Not all files that match are always removed:** a file can be written under a name that is too
long to be resolved. -/
theorem not_deleteMatching_removes_all :
    letI : Allocator := .upTo 1024 16
    ¬∀ (requests : List Request) (dir name : String),
      (∀ request ∈ requests, Path.IsWithin "/lfs" request.path) → Path.IsWithin "/lfs" dir →
      let v := (newMounted "/lfs").after (requests.map (Step.request (.upTo 1024 16) {}))
      v.pathMap dir = some .directory → dir.toList.getLast? ≠ some '/' →
      Text.byteLength dir + 1 ≤ (Config.maxPathSize {}).toNat →
      ∃ (removed : List Entry) (v' : MemoryVolume),
        runOn backend (Directory.deleteMatching dir name {}) v = (.ok removed.length, v') ∧
        (removed.map Entry.name).Nodup ∧
        (∀ entry, entry ∈ removed ↔ v.pathMap.IsMatch dir name entry) ∧
        v'.pathMap = v.pathMap.without (removed.map fun entry => dir ++ "/" ++ entry.name) := by
  intro h
  let long := "bbbbbbbbbbbbbbbbbbbbbbbbbbbbbbbbbbbbbbbbbbbbbbbbbbbbbbbbbbbb.log"
  let requests : List Request := [.file (.write ("/lfs/" ++ long) [2])]
  let _ : Allocator := .upTo 1024 16
  let v := (newMounted "/lfs").after (requests.map (Step.request (.upTo 1024 16) {}))
  obtain ⟨removed, v', hrun, -, hmem, -⟩ := h requests "/lfs" "" (by decide +kernel) (by decide)
    (by decide +kernel) (by decide) (by decide)
  have hanswer : (runOn backend (Directory.deleteMatching "/lfs" "" {}) v).1 = .ok 0 := by
    decide +kernel
  rw [hrun, Except.ok.injEq, List.length_eq_zero_iff] at hanswer
  obtain ⟨found, hfound, -, -, hmatches⟩ := exists_matches v "/lfs" ""
  have hone : found = [.ofFile long 1] := by
    rw [← hfound]
    decide +kernel
  have hkept : Entry.ofFile long 1 ∈ removed :=
    (hmem _).2 ((hmatches _).1 (by rw [hone]; exact List.mem_cons_self))
  rw [hanswer] at hkept
  cases hkept

end MemoryVolume
end FlashVolume

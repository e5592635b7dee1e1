import FlashVolume.Directory
import FlashVolume.Proofs.Memory.Calls
import FlashVolume.Proofs.Path.Stages
/-!
# Directories that are made

Sections 4.6 and 8 of the specification: `mkdir_recursive`.

`makePath` walks down the stages of a path and makes sure that each is a directory. It looks for
nothing before it starts, and it takes nothing back; that it makes all of the directories that are
missing or none at all is due to the volume:

| what it meets | what is above | what is below |
| --- | --- | --- |
| a directory | directories | anything |
| a file | directories, which it has passed | |
| nothing | | nothing, so whatever is left to do is to be made |

So it can meet a file only before it has made anything. This needs that the parent of every entry is
a directory (`PathMap.IsClosed`). No fault touches the two calls that the walk is made of.
-/

namespace FlashVolume

namespace PathMap

/-- The parent of every entry is a directory. -/
def IsClosed (m : PathMap) : Prop :=
  ∀ path, m path ≠ none → m (Path.parent path) = some .directory

/-- The map is closed, its root is a directory, and no other entry has a path that ends in a
separator. -/
structure IsTidy (m : PathMap) : Prop where
  root : m "/" = some .directory
  closed : m.IsClosed
  trimmed : ∀ path, path ≠ "/" → m path ≠ none → path.toList.getLast? ≠ some '/'

section Descents

variable {m : PathMap} (hclosed : m.IsClosed)
include hclosed

/-- **What is on the way to an entry is a directory.** -/
theorem directories_above {above below : List String} {path : String}
    (hdescent : Path.IsDescent (above ++ path :: below)) (hpath : m path ≠ none) :
    ∀ stage ∈ above, m stage = some .directory := by
  induction above with
  | nil => exact List.forall_mem_nil _
  | cons stage above ih =>
    have hbelow : ∀ p ∈ above, m p = some .directory := ih hdescent.of_cons
    -- The stage is the parent of the next one, which is there.
    have hstage : m stage = some .directory := by
      cases above with
      | nil =>
        rw [← hdescent.rel]
        exact hclosed path hpath
      | cons next above =>
        have hnext : m next = some .directory := hbelow next List.mem_cons_self
        rw [← hdescent.rel]
        exact hclosed next (hnext ▸ Option.some_ne_none _)
    exact List.forall_mem_cons.2 ⟨hstage, hbelow⟩

/-- Nothing is below a path that is free. -/
theorem missing_below {path : String} {below : List String}
    (hdescent : Path.IsDescent (path :: below)) (hfree : m path = none) :
    ∀ stage ∈ below, m stage = none := by
  intro stage hstage
  by_contra hpresent
  obtain ⟨between, rest, rfl⟩ := List.append_of_mem hstage
  have hthere : m path = some .directory :=
    directories_above hclosed hdescent hpresent path List.mem_cons_self
  rw [hthere] at hfree
  cases hfree

end Descents

end PathMap

namespace MemoryVolume

open Operation

variable {v v' : MemoryVolume} {stages : List String}

/-- Whether a volume is tidy can be seen from its paths. -/
theorem isTidy_iff (v : MemoryVolume) :
    v.pathMap.IsTidy ↔ v.pathMap "/" = some .directory ∧
      ∀ path ∈ v.nodes.keys, v.pathMap (Path.parent path) = some .directory ∧
        (path ≠ "/" → path.toList.getLast? ≠ some '/') := by
  have hkeys : ∀ path, path ∈ v.nodes.keys ↔ v.pathMap path ≠ none := by
    intro path
    rw [Std.TreeMap.mem_keys, Std.TreeMap.mem_iff_isSome_getElem?, Option.isSome_iff_ne_none]
    rfl
  simp only [hkeys]
  constructor
  · intro h
    exact ⟨h.root, fun path hpath => ⟨h.closed path hpath, fun hne => h.trimmed path hne hpath⟩⟩
  · rintro ⟨hroot, hpaths⟩
    exact ⟨hroot, fun path hpath => (hpaths path hpath).1,
      fun path hne hpath => (hpaths path hpath).2 hne⟩

instance (v : MemoryVolume) : Decidable v.pathMap.IsTidy :=
  decidable_of_iff' _ (isTidy_iff v)

/-! ### What has been made -/

/-- The second volume is the first with directories at some paths that were free, each counted
once. -/
structure HasMade (v : MemoryVolume) (made : List String) (v' : MemoryVolume) : Prop where
  node : ∀ path, v'.pathMap path = if path ∈ made then some .directory else v.pathMap path
  counters : v'.counters = { v.counters with mkdirs := v.counters.mkdirs + made.length }
  rest : v' = { v with nodes := v'.nodes, counters := v'.counters }

/-- A volume with one more directory. -/
def withDirectory (path : String) (v : MemoryVolume) : MemoryVolume :=
  { v with
    nodes := v.nodes.insert path .directory
    counters := { v.counters with mkdirs := v.counters.mkdirs + 1 } }

/-- A directory that is made stands at its path. -/
theorem pathMap_withDirectory (path : String) (v : MemoryVolume) :
    (v.withDirectory path).pathMap = v.pathMap.update path (some .directory) :=
  pathMap_insert rfl

/-- The stages that are left stand as they stood. -/
theorem pathMap_withDirectory_of_notMem {stage : String} (hnew : stage ∉ stages)
    (v : MemoryVolume) :
    ∀ path ∈ stages, (v.withDirectory stage).pathMap path = v.pathMap path := by
  intro path hpath
  rw [pathMap_withDirectory, PathMap.update, if_neg]
  rintro rfl
  exact hnew hpath

/-- A stage that has been made can hold the next one. -/
theorem withDirectory_head {stage : String} (hdescent : Path.IsDescent (stage :: stages))
    (v : MemoryVolume) :
    ∀ next ∈ stages.head?,
      (v.withDirectory stage).pathMap (Path.parent next) = some .directory := by
  intro next hnext
  rw [hdescent.parent_head next hnext, pathMap_withDirectory, PathMap.update_self]

/-- Nothing is made of no paths. -/
theorem HasMade.nil (v : MemoryVolume) : v.HasMade [] v :=
  ⟨fun _ => rfl, rfl, rfl⟩

/-- The first path is made before the others. -/
theorem HasMade.cons {path : String} {made : List String}
    (h : (v.withDirectory path).HasMade made v') : v.HasMade (path :: made) v' := by
  refine ⟨?_, ?_, h.rest⟩
  · intro p
    rw [h.node p, pathMap_withDirectory, PathMap.update]
    by_cases hmade : p ∈ made
    · simp [hmade]
    · simp [hmade]
  · have hcount : v.counters.mkdirs + (made.length + 1) = v.counters.mkdirs + 1 + made.length := by
      omega
    rw [h.counters, List.length_cons, hcount]
    rfl

/-! ### One stage -/

/-- At a free path a directory is made below another, and the errors name the parent. -/
theorem mkdir_mounted (hmounted : v.mounted = true) {path : String}
    (hfree : v.pathMap path = none) :
    backend.answer (.mkdir path) v =
      match v.pathMap (Path.parent path) with
      | some .directory => (.ok (), v.withDirectory path)
      | some (.file _) => (.error (.notADirectory (Path.parent path)), v)
      | none => (.error (.notFound (Path.parent path)), v) := by
  have hfree : v.nodes[path]? = none := hfree
  simp only [backend, answer, mkdir, whenMounted, if_pos hmounted, checkParent, pathMap,
    Std.TreeMap.contains_eq_isSome_getElem?, hfree, Option.isSome_none, Bool.false_eq_true,
    if_false]
  cases v.nodes[Path.parent path]? with
  | none => rfl
  | some node => cases node <;> rfl

/-- **A stage that is a directory is passed, a file stops the walk, and a free path becomes a
directory if its parent is one.** -/
theorem runOn_makeStage (hmounted : v.mounted = true) (path : String) :
    runOn backend (Directory.makeStage path) v =
      match v.pathMap path with
      | some .directory => (.ok (), v)
      | some (.file _) => (.error (.notADirectory path), v)
      | none =>
        match v.pathMap (Path.parent path) with
        | some .directory => (.ok (), v.withDirectory path)
        | some (.file _) => (.error (.notADirectory (Path.parent path)), v)
        | none => (.error (.notFound (Path.parent path)), v) := by
  simp only [Directory.makeStage, runOn_bind, runOn_attempt, stat_mounted hmounted]
  cases hnode : v.pathMap path with
  | some node => cases node <;> rfl
  | none =>
    simp only [runOn_request, mkdir_mounted hmounted hnode]
    cases v.pathMap (Path.parent path) with
    | none => rfl
    | some node => cases node <;> rfl

/-! ### The walk -/

/-- The stages are made until one fails. -/
theorem runOn_forM_cons (stage : String) (stages : List String) (v : MemoryVolume) :
    runOn backend ((stage :: stages).forM Directory.makeStage) v =
      match runOn backend (Directory.makeStage stage) v with
      | (.ok _, v') => runOn backend (stages.forM Directory.makeStage) v'
      | (.error e, v') => (.error e, v') := by
  have hcons : (stage :: stages).forM Directory.makeStage =
      (Directory.makeStage stage >>= fun _ => stages.forM Directory.makeStage) :=
    rfl
  rw [hcons, runOn_bind]
  rcases runOn backend (Directory.makeStage stage) v with ⟨_ | _, v'⟩ <;> rfl

/-- Stages that are directories are passed. -/
theorem runOn_forM_append (hmounted : v.mounted = true) {above : List String}
    (habove : ∀ stage ∈ above, v.pathMap stage = some .directory) (stages : List String) :
    runOn backend ((above ++ stages).forM Directory.makeStage) v =
      runOn backend (stages.forM Directory.makeStage) v := by
  induction above with
  | nil => rfl
  | cons stage above ih =>
    obtain ⟨hstage, habove⟩ := List.forall_mem_cons.1 habove
    rw [List.cons_append, runOn_forM_cons, runOn_makeStage hmounted, hstage]
    exact ih habove

/-- Whatever stops the walk, it has made directories at stages that were free, and nothing else. -/
theorem exists_made (hmounted : v.mounted = true) (stages : List String) :
    ∃ made : List String, (∀ path ∈ made, path ∈ stages ∧ v.pathMap path = none) ∧
      v.HasMade made (runOn backend (stages.forM Directory.makeStage) v).2 := by
  -- By induction on the stages that are left, for the volume that the others have led to.
  induction stages generalizing v with
  | nil => exact ⟨[], List.forall_mem_nil _, .nil v⟩
  | cons stage stages ih =>
    have hstop : ∃ made : List String,
        (∀ path ∈ made, path ∈ stage :: stages ∧ v.pathMap path = none) ∧ v.HasMade made v :=
      ⟨[], List.forall_mem_nil _, .nil v⟩
    rw [runOn_forM_cons, runOn_makeStage hmounted]
    cases hnode : v.pathMap stage with
    | some node =>
      cases node with
      | file data => exact hstop
      | directory =>
        obtain ⟨made, hmem, hmade⟩ := ih hmounted
        exact ⟨made, fun p hp => ⟨List.mem_cons_of_mem _ (hmem p hp).1, (hmem p hp).2⟩, hmade⟩
    | none =>
      cases v.pathMap (Path.parent stage) with
      | none => exact hstop
      | some node =>
        cases node with
        | file data => exact hstop
        | directory =>
          obtain ⟨made, hmem, hmade⟩ := ih (v := v.withDirectory stage) hmounted
          refine ⟨stage :: made, ?_, hmade.cons⟩
          refine List.forall_mem_cons.2 ⟨⟨List.mem_cons_self, hnode⟩, ?_⟩
          intro p hp
          obtain ⟨hstage, hfree⟩ := hmem p hp
          refine ⟨List.mem_cons_of_mem _ hstage, ?_⟩
          rw [pathMap_withDirectory, PathMap.update] at hfree
          split at hfree
          · cases hfree
          · exact hfree

/-- **Without a file on the way, the walk makes what is missing.** -/
theorem runOn_forM_ok (hmounted : v.mounted = true) (hdescent : Path.IsDescent stages)
    (hnodup : stages.Nodup)
    (hhead : ∀ stage ∈ stages.head?, v.pathMap (Path.parent stage) = some .directory)
    (hfiles : ∀ stage ∈ stages, ∀ data, v.pathMap stage ≠ some (.file data)) :
    ∃ v', runOn backend (stages.forM Directory.makeStage) v = (.ok (), v') ∧
      v.HasMade (stages.filter fun stage => v.pathMap stage = none) v' := by
  induction stages generalizing v with
  | nil => exact ⟨v, rfl, .nil v⟩
  | cons stage stages ih =>
    obtain ⟨hfile, hfiles⟩ := List.forall_mem_cons.1 hfiles
    obtain ⟨hnew, hnodup⟩ := List.nodup_cons.1 hnodup
    rw [runOn_forM_cons, runOn_makeStage hmounted, hhead stage rfl]
    cases hnode : v.pathMap stage with
    | some node =>
      cases node with
      | file data => exact absurd hnode (hfile data)
      | directory =>
        have hnext : ∀ next ∈ stages.head?, v.pathMap (Path.parent next) = some .directory := by
          intro next hmem
          rw [hdescent.parent_head next hmem, hnode]
        obtain ⟨v', hrun, hmade⟩ := ih hmounted hdescent.of_cons hnodup hnext hfiles
        refine ⟨v', hrun, ?_⟩
        rwa [List.filter_cons_of_neg (by simp [hnode])]
    | none =>
      -- The walk goes on with the directory in place, which is none of the stages to come.
      have hkept := pathMap_withDirectory_of_notMem hnew v
      obtain ⟨v', hrun, hmade⟩ := ih (v := v.withDirectory stage) hmounted hdescent.of_cons hnodup
        (withDirectory_head hdescent v) fun p hp => hkept p hp ▸ hfiles p hp
      have hsame : (stages.filter fun p => (v.withDirectory stage).pathMap p = none) =
          stages.filter fun p => v.pathMap p = none :=
        List.filter_congr fun p hp => by rw [hkept p hp]
      refine ⟨v', hrun, ?_⟩
      rw [List.filter_cons_of_pos (by simp [hnode]), ← hsame]
      exact hmade.cons

/-- A file stops the walk behind the directories above it. -/
theorem runOn_forM_file (hmounted : v.mounted = true) {above : List String} {stage : String}
    {data : Bytes} (habove : ∀ p ∈ above, v.pathMap p = some .directory)
    (hfile : v.pathMap stage = some (.file data)) (below : List String) :
    runOn backend ((above ++ stage :: below).forM Directory.makeStage) v =
      (.error (.notADirectory stage), v) := by
  rw [runOn_forM_append hmounted habove, runOn_forM_cons, runOn_makeStage hmounted, hfile]

/-- Nothing below a missing stage is there, so once it has been made the rest will be. -/
theorem runOn_forM_below (hmounted : v.mounted = true) (hclosed : v.pathMap.IsClosed)
    {stage : String} (hdescent : Path.IsDescent (stage :: stages))
    (hnodup : (stage :: stages).Nodup) (hnode : v.pathMap stage = none) :
    ∃ v', runOn backend (stages.forM Directory.makeStage) (v.withDirectory stage) =
      (.ok (), v') := by
  obtain ⟨hnew, hnodup⟩ := List.nodup_cons.1 hnodup
  have hmissing : ∀ p ∈ stages, (v.withDirectory stage).pathMap p = none := by
    intro p hp
    rw [pathMap_withDirectory_of_notMem hnew v p hp]
    exact PathMap.missing_below hclosed hdescent hnode p hp
  have hfiles : ∀ p ∈ stages, ∀ data, (v.withDirectory stage).pathMap p ≠ some (.file data) := by
    intro p hp data hfile
    rw [hmissing p hp] at hfile
    cases hfile
  obtain ⟨v', hrun, -⟩ := runOn_forM_ok (v := v.withDirectory stage) hmounted hdescent.of_cons
    hnodup (withDirectory_head hdescent v) hfiles
  exact ⟨v', hrun⟩

/-- **A walk that fails has made nothing,** if the map is closed. -/
theorem runOn_forM_error (hmounted : v.mounted = true)
    (hclosed : v.pathMap.IsClosed) (hdescent : Path.IsDescent stages) (hnodup : stages.Nodup)
    {e : Error}
    (h : runOn backend (stages.forM Directory.makeStage) v = (.error e, v')) : v' = v := by
  induction stages with
  | nil => cases h
  | cons stage stages ih =>
    rw [runOn_forM_cons, runOn_makeStage hmounted] at h
    cases hnode : v.pathMap stage with
    | some node =>
      rw [hnode] at h
      cases node with
      | directory => exact ih hdescent.of_cons hnodup.of_cons h
      | file data =>
        cases h
        rfl
    | none =>
      rw [hnode] at h
      -- Below a stage that is missing nothing stands, so behind it no stage can fail.
      obtain ⟨v₁, hrest⟩ := runOn_forM_below hmounted hclosed hdescent hnodup hnode
      cases habove : v.pathMap (Path.parent stage) with
      | none =>
        rw [habove] at h
        cases h
        rfl
      | some node =>
        rw [habove] at h
        cases node with
        | file data =>
          cases h
          rfl
        | directory =>
          simp only [hrest] at h
          cases h

/-! ### The operation -/

variable {config : Config} {path clean target : String}

/-- What is already there is not walked to. -/
theorem runOn_makePath (hmounted : v.mounted = true)
    (hclean : Path.normalizeWithin path config = .ok clean) (recursive : Bool) :
    runOn backend (Directory.makePath path recursive config) v =
      match v.pathMap clean with
      | some .directory => (.ok (), v)
      | some (.file _) => (.error (.notADirectory clean), v)
      | none =>
        if Path.trimSeparators clean = "" then (.error (.invalidInput path), v)
        else
          runOn backend ((if recursive then Path.stages (Path.trimSeparators clean)
            else [Path.trimSeparators clean]).forM Directory.makeStage) v := by
  simp only [Directory.makePath, runOn_bind, runOn_ofExcept, hclean, runOn_attempt,
    stat_mounted hmounted, String.isEmpty_iff]
  cases v.pathMap clean with
  | some node => cases node <;> rfl
  | none =>
    by_cases hempty : Path.trimSeparators clean = ""
    · simp [hempty]
    · simp [hempty]

/-- **On a tidy volume the walk alone says what happens,** as it passes the directories above an
entry that is already there. -/
theorem runOn_makePath_tidy (hmounted : v.mounted = true) (htidy : v.pathMap.IsTidy)
    (hclean : Path.normalizeWithin path config = .ok clean) (hroot : clean ≠ "/")
    (htarget : Path.trimSeparators clean ≠ "") (recursive : Bool) :
    runOn backend (Directory.makePath path recursive config) v =
      runOn backend ((if recursive then Path.stages (Path.trimSeparators clean)
        else [Path.trimSeparators clean]).forM Directory.makeStage) v := by
  rw [runOn_makePath hmounted hclean]
  cases hnode : v.pathMap clean with
  | none => exact if_neg htarget
  | some node =>
    have hpresent : v.pathMap clean ≠ none := hnode ▸ Option.some_ne_none node
    rw [Path.trimSeparators_eq_self (htidy.trimmed clean hroot hpresent)]
    -- Either walk ends at the entry, and all that it passes before are directories.
    obtain ⟨above, hwalk, habove⟩ : ∃ above,
        (if recursive then Path.stages clean else [clean]) = above ++ [clean] ∧
          ∀ stage ∈ above, v.pathMap stage = some .directory := by
      cases recursive with
      | false => exact ⟨[], rfl, List.forall_mem_nil _⟩
      | true =>
        obtain ⟨above, hstages⟩ := Path.exists_stages_concat clean
        have hdescent : Path.IsDescent (above ++ [clean]) := hstages ▸ Path.isDescent_stages clean
        exact ⟨above, hstages, PathMap.directories_above htidy.closed hdescent hpresent⟩
    rw [hwalk, runOn_forM_append hmounted habove, runOn_forM_cons, runOn_makeStage hmounted, hnode]
    cases node <;> rfl

/-- Without a file on the way, exactly the directories that are missing have been made. With one,
nothing has, and the error names the first. -/
structure MakesAll (v : MemoryVolume) (target : String)
    (result : Except Error Unit × MemoryVolume) : Prop where
  ok_iff : result.1 = .ok () ↔
    ∀ stage, Path.IsStage stage target → ∀ data, v.pathMap stage ≠ some (.file data)
  made : result.1 = .ok () → ∃ made : List String, made.Nodup ∧
    (∀ stage, stage ∈ made ↔ Path.IsStage stage target ∧ v.pathMap stage = none) ∧
      v.HasMade made result.2
  failed : ∀ e, result.1 = .error e → result.2 = v ∧
    ∃ stage data, e = .notADirectory stage ∧ Path.IsStage stage target ∧
      v.pathMap stage = some (.file data) ∧
        ∀ above, Path.IsStage above target → above.length < stage.length →
          v.pathMap above = some .directory

/-- No directory but the last is made, and that one in a directory only. -/
def MakesOne (v : MemoryVolume) (target : String) (result : Except Error Unit × MemoryVolume) :
    Prop :=
  match v.pathMap target with
  | some .directory => result = (.ok (), v)
  | some (.file _) => result = (.error (.notADirectory target), v)
  | none =>
    match v.pathMap (Path.parent target) with
    | some .directory => result.1 = .ok () ∧ v.HasMade [target] result.2
    | some (.file _) => result = (.error (.notADirectory (Path.parent target)), v)
    | none => result = (.error (.notFound (Path.parent target)), v)

/-- **Without parents**: one directory is made, or stands, or the error tells why not. -/
theorem makesOne (hmounted : v.mounted = true) (target : String) :
    v.MakesOne target (runOn backend ([target].forM Directory.makeStage) v) := by
  rw [MakesOne, runOn_forM_cons, runOn_makeStage hmounted]
  cases v.pathMap target with
  | some node => cases node <;> rfl
  | none =>
    cases v.pathMap (Path.parent target) with
    | none => rfl
    | some node =>
      cases node with
      | file data => rfl
      | directory => exact ⟨rfl, .cons (.nil _)⟩

/-- **With parents**: the missing stages are made, from the shortest on. -/
theorem makesAll (hmounted : v.mounted = true) (htidy : v.pathMap.IsTidy) (htarget : target ≠ "")
    (habsolute : target.toList.head? = some '/') :
    v.MakesAll target (runOn backend ((Path.stages target).forM Directory.makeStage) v) := by
  have hstage : ∀ stage, stage ∈ Path.stages target ↔ Path.IsStage stage target :=
    fun stage => Path.mem_stages_iff htarget
  have hdescent := Path.isDescent_stages target
  by_cases hfile : ∃ stage data, stage ∈ Path.stages target ∧
      v.pathMap stage = some (.file data)
  · obtain ⟨stage, data, hmem, hnode⟩ := hfile
    obtain ⟨above, below, hsplit⟩ := List.append_of_mem hmem
    rw [hsplit] at hdescent
    have habove := PathMap.directories_above htidy.closed hdescent (hnode ▸ Option.some_ne_none _)
    rw [hsplit, runOn_forM_file hmounted habove hnode below]
    refine ⟨⟨fun h => (nomatch h), fun h => ?_⟩, fun h => (nomatch h), ?_⟩
    · exact absurd hnode (h stage ((hstage stage).1 hmem) data)
    · rintro e ⟨⟩
      refine ⟨rfl, stage, data, rfl, (hstage stage).1 hmem, hnode, ?_⟩
      -- What is shorter comes before.
      intro p hp hshort
      have hlengths := Path.pairwise_stages target
      rw [← hstage, hsplit, List.mem_append, List.mem_cons] at hp
      rw [hsplit, List.pairwise_append, List.pairwise_cons] at hlengths
      rcases hp with hp | rfl | hp
      · exact habove p hp
      · exact absurd hshort (Nat.lt_irrefl _)
      · exact absurd (hlengths.2.1.1 p hp) (Nat.lt_asymm hshort)
  · have hfiles : ∀ stage ∈ Path.stages target, ∀ data, v.pathMap stage ≠ some (.file data) :=
      fun stage hmem data hnode => hfile ⟨stage, data, hmem, hnode⟩
    have hhead : ∀ stage ∈ (Path.stages target).head?,
        v.pathMap (Path.parent stage) = some .directory := by
      intro stage hmem
      rw [Path.parent_head_stages habsolute stage hmem, htidy.root]
    have hnodup := Path.nodup_stages target
    obtain ⟨v', hrun, hmade⟩ := runOn_forM_ok hmounted hdescent hnodup hhead hfiles
    rw [hrun]
    refine ⟨⟨fun _ stage hp => hfiles stage ((hstage stage).2 hp), fun _ => rfl⟩, fun _ => ?_,
      fun e h => nomatch h⟩
    refine ⟨_, hnodup.filter _, ?_, hmade⟩
    intro stage
    rw [List.mem_filter, hstage, decide_eq_true_iff]

/-- **Making a directory makes exactly what is missing, or nothing.** On a mounted volume that is
tidy, and for an absolute path with the clean form `clean`: the root is there; any other path is
walked to as it is without the separators at its end. With `recursive` every directory on the way is
made, unless a file is in the way, and then none is; without it the last one at most. -/
theorem makePath_tidy (hmounted : v.mounted = true) (htidy : v.pathMap.IsTidy)
    (habsolute : path.toList.head? = some '/')
    (hclean : Path.normalizeWithin path config = .ok clean) :
    (clean = "/" → ∀ recursive,
      runOn backend (Directory.makePath path recursive config) v = (.ok (), v)) ∧
    (clean ≠ "/" →
      v.MakesAll (Path.trimSeparators clean)
        (runOn backend (Directory.makePath path true config) v) ∧
      v.MakesOne (Path.trimSeparators clean)
        (runOn backend (Directory.makePath path false config) v)) := by
  refine ⟨?_, ?_⟩
  · rintro rfl recursive
    rw [runOn_makePath hmounted hclean, htidy.root]
  · intro hroot
    obtain ⟨bound, -, hbounded⟩ := Path.normalizeWithin_eq_ok_iff.1 hclean
    obtain ⟨htarget, hhead⟩ := (Path.normalize_absolute habsolute hbounded).resolve_left hroot
    have hrun := runOn_makePath_tidy hmounted htidy hclean hroot htarget
    rw [hrun true, hrun false]
    exact ⟨makesAll hmounted htidy htarget hhead, makesOne hmounted _⟩

/-- Two directories are made behind one that is there, below a clean path that ends in a separator;
below a file none is. -/
theorem makePath_tidy_behindFile :
    let v := (newMounted "/lfs").insertFile "/lfs/a/f" [1]
    let made := runOn backend (Directory.makePath "/lfs//a/./b/c/" true {}) v
    let refused := runOn backend (Directory.makePath "/lfs/a/f/g/h" true {}) v
    v.mounted = true ∧ v.pathMap.IsTidy ∧
      v.MakesAll "/lfs/a/b/c" made ∧ made.1 = .ok () ∧ made.2.counters.mkdirs = 2 ∧
      v.MakesAll "/lfs/a/f/g/h" refused ∧ refused.1 = .error (.notADirectory "/lfs/a/f") := by
  intro v made refused
  have htidy : v.pathMap.IsTidy := by decide
  have hbehind : Path.normalizeWithin "/lfs//a/./b/c/" {} =
      .ok "/lfs/a/b/c/" := by decide
  have hbelow : Path.normalizeWithin "/lfs/a/f/g/h" {} =
      .ok "/lfs/a/f/g/h" := by decide
  have hmade := (makePath_tidy (v := v) rfl htidy (by decide) hbehind).2 (by decide)
  have hrefused := (makePath_tidy (v := v) rfl htidy (by decide) hbelow).2 (by decide)
  have htrim : Path.trimSeparators "/lfs/a/b/c/" = "/lfs/a/b/c" := by decide
  have hkept : Path.trimSeparators "/lfs/a/f/g/h" = "/lfs/a/f/g/h" := by decide
  rw [htrim] at hmade
  rw [hkept] at hrefused
  exact ⟨rfl, htidy, hmade.1, by decide, by decide, hrefused.1, by decide⟩

end MemoryVolume
end FlashVolume

import FlashVolume.Host.System
import FlashVolume.Proofs.Path.Names
import Std.Data.TreeMap.Lemmas
/-!
# Paths of the host

Names below a path that no separator ends are put behind its segments, so walking such a path is
walking the first path and then the names.

Where parts lead is a matter of their text alone (`HostPath.lead`), as nothing on this host stands
for something else: a walk that succeeds ends there (`eq_lead_of_walk`), and on the way it looks at
the locations that the first parts lead to (`walk_congr`). The parent of a path leads through no
other locations than the path (`exists_prefix_of_parent`).

A path can be located although something is on the way that is not there to stay: the entry that it
names, or what is below that. `LeadsTo` says that this is not so. A path that leads to a location
ends in the name of what stands there (`LeadsTo.getLast?_parts`).
-/

namespace FlashVolume

namespace HostPath

variable {root : HostPath} {names : List String}

/-- A name that is pushed becomes the last segment. -/
theorem segments_push {path : HostPath} (h : path.endsInSeparator = false) (name : String) :
    (path.push name).segments = path.segments ++ [name] := by
  rw [push, h]
  rfl

/-- A path whose last segment has characters ends in no separator. -/
theorem endsInSeparator_of_segments {path : HostPath} {before : List String} {name : String}
    (h : path.segments = before ++ [name]) (hname : name ≠ "") : path.endsInSeparator = false := by
  simp [endsInSeparator, h, hname]

/-- Names below a path that no separator ends are put behind its segments. -/
theorem segments_pushAll (hroot : root.endsInSeparator = false)
    (hnames : ∀ name ∈ names, name ≠ "") :
    (root.pushAll names).segments = root.segments ++ names := by
  induction names generalizing root with
  | nil => simp [pushAll]
  | cons name names ih =>
    obtain ⟨hname, hnames⟩ := List.forall_mem_cons.1 hnames
    have hpush := segments_push hroot name
    have hrest := ih (endsInSeparator_of_segments hpush hname) hnames
    rw [hpush] at hrest
    simpa [pushAll] using hrest

/-- Pushed names leave no separator at the end. -/
theorem endsInSeparator_pushAll (hroot : root.endsInSeparator = false)
    (hnames : ∀ name ∈ names, name ≠ "") : (root.pushAll names).endsInSeparator = false := by
  rw [endsInSeparator, segments_pushAll hroot hnames]
  cases names using List.reverseRecOn with
  | nil => simpa [endsInSeparator] using hroot
  | append_singleton first last =>
    have hlast : last ≠ "" := hnames last (by simp)
    simp [hlast]

/-- A name that is pushed becomes the last part. -/
theorem parts_push {path : HostPath} {name : String} (hname : name ≠ "") :
    (path.push name).parts = path.parts ++ [name] := by
  have hkept : [name].filter (· ≠ "") = [name] := by simp [hname]
  rw [push, parts, List.filter_append, hkept, parts]
  split
  · next hends =>
    -- What is cut off is an empty segment.
    obtain ⟨before, hbefore⟩ := List.getLast?_eq_some_iff.1 (of_decide_eq_true hends)
    simp [hbefore]
  · rfl

/-- Names that are pushed become the last parts. -/
theorem parts_pushAll (hnames : ∀ name ∈ names, name ≠ "") :
    (root.pushAll names).parts = root.parts ++ names := by
  induction names generalizing root with
  | nil => simp [pushAll]
  | cons name names ih =>
    obtain ⟨hname, hnames⟩ := List.forall_mem_cons.1 hnames
    have hrest : ((root.push name).pushAll names).parts = (root.push name).parts ++ names :=
      ih hnames
    rw [parts_push hname, List.append_assoc] at hrest
    exact hrest

/-- A path is absolute if a separator stands in front. -/
theorem isAbsolute_iff (path : HostPath) :
    path.isAbsolute = true ↔ ∃ second rest, path.segments = "" :: second :: rest := by
  unfold isAbsolute
  split
  · next second rest h => exact iff_of_true rfl ⟨second, rest, h⟩
  · next h => exact iff_of_false nofun fun ⟨second, rest, h'⟩ => h second rest h'

/-- What is pushed does not change the front. -/
theorem isAbsolute_push {path : HostPath} {name : String} (hname : name ≠ "") :
    (path.push name).isAbsolute = path.isAbsolute := by
  obtain ⟨segments⟩ := path
  rw [Bool.eq_iff_iff, isAbsolute_iff, isAbsolute_iff]
  cases segments with
  | nil => simp [push, endsInSeparator]
  | cons first others =>
    cases others with
    | nil => by_cases hfirst : first = "" <;> simp [push, endsInSeparator, hfirst, hname]
    | cons second others =>
      -- The first segment stays the first, and another one follows it.
      have hsegments : ∃ next rest, (HostPath.push ⟨first :: second :: others⟩ name).segments =
          first :: next :: rest := by
        rw [push]
        split
        · cases others with
          | nil => exact ⟨name, [], rfl⟩
          | cons third others => exact ⟨second, (third :: others).dropLast ++ [name], rfl⟩
        · exact ⟨second, others ++ [name], rfl⟩
      obtain ⟨next, rest, hsegments⟩ := hsegments
      simp [hsegments]

/-- Nor does all that is pushed. -/
theorem isAbsolute_pushAll (hnames : ∀ name ∈ names, name ≠ "") :
    (root.pushAll names).isAbsolute = root.isAbsolute := by
  induction names generalizing root with
  | nil => rfl
  | cons name names ih =>
    obtain ⟨hname, hnames⟩ := List.forall_mem_cons.1 hnames
    exact (ih hnames).trans (isAbsolute_push hname)

/-- Names make a path longer. -/
theorem byteLength_toText_pushAll (hroot : root.endsInSeparator = false)
    (hnames : ∀ name ∈ names, name ≠ "") :
    Text.byteLength root.toText ≤ Text.byteLength (root.pushAll names).toText := by
  rw [toText, toText, segments_pushAll hroot hnames]
  by_cases hsegments : root.segments = []
  · rw [hsegments, String.intercalate_nil]
    exact Nat.zero_le _
  · by_cases hempty : names = []
    · simp only [hempty, List.append_nil, Nat.le_refl]
    · rw [String.intercalate_append_of_ne_nil hsegments hempty, Text.byteLength, Text.byteLength,
        String.utf8ByteSize_append, String.utf8ByteSize_append, Nat.add_assoc]
      exact Nat.le_add_right _ _

/-- Names may be pushed in two goes. -/
theorem pushAll_append (root : HostPath) (first second : List String) :
    root.pushAll (first ++ second) = (root.pushAll first).pushAll second :=
  List.foldl_append

/-! ### Where parts lead -/

section Leading

variable {path parent : HostPath} {start parts names : List String}

/-- Where a part leads from a location. -/
def step (location : List String) (part : String) : List String :=
  if part = "." then location
  else if part = ".." then location.dropLast
  else location ++ [part]

/-- Where parts lead from a location, whatever stands on the way. -/
def lead (start parts : List String) : List String :=
  parts.foldl step start

/-- Parts may be followed in two goes. -/
theorem lead_append (start first second : List String) :
    lead start (first ++ second) = lead (lead start first) second :=
  List.foldl_append

/-- Names that are no dots are followed one down each. -/
theorem lead_names (h : ∀ name ∈ names, name ≠ "." ∧ name ≠ "..") :
    lead start names = start ++ names := by
  induction names generalizing start with
  | nil => simp [lead]
  | cons name names ih =>
    obtain ⟨⟨hdot, hdots⟩, hnames⟩ := List.forall_mem_cons.1 h
    have hrest : lead (start ++ [name]) names = start ++ [name] ++ names := ih hnames
    rw [List.append_assoc, List.singleton_append] at hrest
    rw [← hrest, lead, List.foldl_cons, step, if_neg hdot, if_neg hdots, lead]

/-- A part `.` leads nowhere. -/
theorem lead_filter (start parts : List String) :
    lead start (parts.filter (· ≠ ".")) = lead start parts := by
  induction parts generalizing start with
  | nil => rfl
  | cons part parts ih =>
    by_cases hdot : part = "."
    · rw [List.filter_cons_of_neg (by simpa using hdot), ih]
      simp [lead, step, hdot]
    · rw [List.filter_cons_of_pos (by simpa using hdot)]
      exact ih (step start part)

/-- A path and its components have the same parts that lead somewhere. -/
theorem filter_components (path : HostPath) :
    path.components.filter (· ≠ ".") = path.parts.filter (· ≠ ".") := by
  unfold components
  split
  · next h => simp [h]
  · simp

/-- Components are parts. -/
theorem mem_parts_of_mem_components {part : String} (h : part ∈ path.components) :
    part ∈ path.parts := by
  unfold components at h
  split at h
  · next hparts =>
    rw [hparts]
    rcases List.mem_cons.1 h with rfl | h
    · exact List.mem_cons_self
    · exact List.mem_cons_of_mem _ (List.mem_of_mem_filter h)
  · exact List.mem_of_mem_filter h

/-- Components have characters. -/
theorem ne_empty_of_mem_components {part : String} (h : part ∈ path.components) : part ≠ "" := by
  simpa using (List.mem_filter.1 (mem_parts_of_mem_components h)).2

/-- A path made of parts has them. -/
theorem parts_ofParts {absolute : Bool} (h : ∀ part ∈ parts, part ≠ "") :
    (ofParts absolute parts).parts = parts := by
  have hkept : parts.filter (· ≠ "") = parts :=
    List.filter_eq_self.2 fun part hpart => decide_eq_true (h part hpart)
  calc (ofParts absolute parts).parts = parts.filter (· ≠ "") := by
        cases absolute <;> cases parts <;> simp [ofParts, HostPath.parts]
    _ = parts := hkept

/-- A path made as an absolute one is absolute. -/
theorem isAbsolute_ofParts {absolute : Bool} (h : ∀ part ∈ parts, part ≠ "") :
    (ofParts absolute parts).isAbsolute = absolute := by
  cases absolute with
  | true => cases parts <;> rfl
  | false =>
    cases parts with
    | nil => rfl
    | cons first rest =>
      have hfirst : first ≠ "" := h first List.mem_cons_self
      simp [ofParts, isAbsolute, hfirst]

/-- **The parent of a path leads through locations that the path leads through.** -/
theorem exists_prefix_of_parent (h : path.parent? = some parent) :
    parent.isAbsolute = path.isAbsolute ∧
      ∀ before, before <+: parent.parts →
        ∃ through, through <+: path.parts ∧ ∀ start, lead start through = lead start before := by
  unfold parent? at h
  split at h
  · cases h
  · cases h
    have hne : ∀ part ∈ path.components.dropLast, part ≠ "" := fun part hpart =>
      ne_empty_of_mem_components ((List.dropLast_prefix _).subset hpart)
    refine ⟨isAbsolute_ofParts hne, fun before hbefore => ?_⟩
    rw [parts_ofParts hne] at hbefore
    -- Without the parts that lead nowhere, it is a start of the parts of the path.
    have hfilter := (hbefore.trans (List.dropLast_prefix _)).filter (· ≠ ".")
    rw [filter_components] at hfilter
    obtain ⟨through, hthrough, heq⟩ := List.prefix_filter_iff.1 hfilter
    refine ⟨through, hthrough, fun start => ?_⟩
    rw [← lead_filter start before, heq, lead_filter]

end Leading

end HostPath

namespace HostSystem

variable {h : HostSystem}

section Walking

variable {h₁ h₂ : HostSystem} {start parts l : List String}

/-- One step of a walk. -/
theorem walk_cons {location : List String} {number : Nat}
    (hnode : h.node? location = some (.directory number)) (part : String) (rest : List String) :
    h.walk location (part :: rest) =
      if part ≠ "." ∧ part ≠ ".." ∧ Text.byteLength part > maxNameLength then
        .error (.os Errno.nameTooLong)
      else h.walk (HostPath.step location part) rest := by
  rw [walk, hnode, HostPath.step]
  by_cases hdot : part = "."
  · simp [hdot]
  · by_cases hdots : part = ".."
    · simp [hdots]
    · simp [hdot, hdots]

/-- A walk leads where its parts lead. -/
theorem eq_lead_of_walk (hl : h.walk start parts = .ok l) : l = HostPath.lead start parts := by
  induction parts generalizing start with
  | nil =>
    cases hl
    rfl
  | cons part rest ih =>
    cases hnode : h.node? start with
    | none => simp [walk, hnode] at hl
    | some node =>
      cases node with
      | file number => simp [walk, hnode] at hl
      | directory number =>
        rw [walk_cons hnode] at hl
        split at hl
        · cases hl
        · exact ih hl

/-- A walk looks at the locations that it leads through. -/
theorem walk_congr (hnode : ∀ before, before <+: parts →
    h₁.node? (HostPath.lead start before) = h₂.node? (HostPath.lead start before)) :
    h₁.walk start parts = h₂.walk start parts := by
  induction parts generalizing start with
  | nil => rfl
  | cons part rest ih =>
    have hstart : h₁.node? start = h₂.node? start := hnode [] List.nil_prefix
    have hrest : h₁.walk (HostPath.step start part) rest =
        h₂.walk (HostPath.step start part) rest :=
      ih fun before hbefore => hnode (part :: before) (List.cons_prefix_cons.2 ⟨rfl, hbefore⟩)
    cases hfound : h₂.node? start with
    | none => rw [walk, walk, hstart, hfound]
    | some node =>
      rw [hfound] at hstart
      cases node with
      | file number => rw [walk, walk, hstart, hfound]
      | directory number => rw [walk_cons hstart, walk_cons hfound, hrest]

end Walking

/-- Walking two ways in sequence. -/
theorem walk_append (location first second : List String) :
    h.walk location (first ++ second) = (h.walk location first) >>= fun l => h.walk l second := by
  induction first generalizing location with
  | nil => rfl
  | cons part first ih =>
    rw [List.cons_append, walk, walk]
    cases h.node? location with
    | none => rfl
    | some node =>
      cases node with
      | file number => rfl
      | directory number =>
        dsimp only
        split_ifs
        · exact ih _
        · exact ih _
        · rfl
        · exact ih _

/-- The path leads to the location, whatever stands there and below it. -/
def LeadsTo (h : HostSystem) (path : HostPath) (location : List String) : Prop :=
  ∀ h' : HostSystem, h'.workingDirectory = h.workingDirectory →
    (∀ l, ¬location <+: l → h'.node? l = h.node? l) → h'.locate path = .ok location

/-- A path that leads to a location is located there. -/
theorem LeadsTo.locate {path : HostPath} {location : List String} (hl : h.LeadsTo path location) :
    h.locate path = .ok location :=
  hl h rfl fun _ _ => rfl

/-- What changes below a location does not change the way to it. -/
theorem LeadsTo.of_eq {h' : HostSystem} {path : HostPath} {location : List String}
    (hl : h.LeadsTo path location) (hdir : h'.workingDirectory = h.workingDirectory)
    (hnodes : ∀ l, ¬location <+: l → h'.node? l = h.node? l) : h'.LeadsTo path location := by
  intro h'' hdir'' hnodes''
  refine hl h'' (hdir''.trans hdir) fun l hbelow => ?_
  rw [hnodes'' l hbelow, hnodes l hbelow]

/-- A path is located by walking it. -/
theorem locate_eq_walk {path : HostPath} (hnul : path.hasNul = false)
    (hlength : Text.byteLength path.toText ≤ maxPathLength) (hempty : path.isEmpty = false) :
    h.locate path = h.walk (if path.isAbsolute then [] else h.workingDirectory) path.parts := by
  rw [locate, hnul, hempty, if_neg nofun, if_neg (by omega), if_neg nofun]

/-- What a path that is located is not. -/
theorem locate_ok {path : HostPath} {location : List String} (hl : h.locate path = .ok location) :
    path.hasNul = false ∧ Text.byteLength path.toText ≤ maxPathLength ∧ path.isEmpty = false := by
  rw [locate] at hl
  split at hl
  · cases hl
  · next hnul =>
    split at hl
    · cases hl
    · next hlength =>
      split at hl
      · cases hl
      · next hempty => exact ⟨by simpa using hnul, by omega, by simpa using hempty⟩

/-- **Names below a path are walked from where the path leads.** -/
theorem locate_pushAll {root : HostPath} {location names : List String}
    (hroot : root.endsInSeparator = false) (hfound : h.locate root = .ok location)
    (hnames : ∀ name ∈ names, name ≠ "") (hnul : ∀ name ∈ names, Char.ofNat 0 ∉ name.toList)
    (hlength : Text.byteLength (root.pushAll names).toText ≤ maxPathLength) :
    h.locate (root.pushAll names) = h.walk location names := by
  obtain ⟨hrootNul, hrootLength, hrootEmpty⟩ := locate_ok hfound
  rw [locate_eq_walk hrootNul hrootLength hrootEmpty] at hfound
  have hparts : (root.pushAll names).parts = root.parts ++ names := HostPath.parts_pushAll hnames
  have habsolute : (root.pushAll names).isAbsolute = root.isAbsolute :=
    HostPath.isAbsolute_pushAll hnames
  have hempty : (root.pushAll names).isEmpty = false := by
    rw [HostPath.isEmpty, Bool.and_eq_false_iff] at hrootEmpty ⊢
    rw [habsolute, hparts]
    refine hrootEmpty.imp_right fun hroot => ?_
    rw [List.isEmpty_eq_false_iff] at hroot ⊢
    exact List.append_ne_nil_of_left_ne_nil hroot names
  have hnoNul : (root.pushAll names).hasNul = false := by
    rw [HostPath.hasNul, HostPath.segments_pushAll hroot hnames, List.any_append,
      Bool.or_eq_false_iff]
    refine ⟨hrootNul, List.any_eq_false.2 fun name hname => ?_⟩
    simpa using hnul name hname
  rw [locate_eq_walk hnoNul hlength hempty, habsolute, hparts, walk_append, hfound]
  rfl

/-- The part is a name that leads on from a directory. -/
structure IsStep (part : String) : Prop where
  ne_dot : part ≠ "."
  ne_dots : part ≠ ".."
  length_le : Text.byteLength part ≤ maxNameLength

/-- A name leads to its entry of a directory. -/
theorem walk_directory {location : List String} {number : Nat}
    (hnode : h.node? location = some (.directory number)) {part : String} (hpart : IsStep part)
    (rest : List String) : h.walk location (part :: rest) = h.walk (location ++ [part]) rest := by
  have hlength := hpart.length_le
  rw [walk_cons hnode, if_neg (by omega), HostPath.step, if_neg hpart.ne_dot,
    if_neg hpart.ne_dots]

/-- Names can lead only to their own location. -/
theorem walk_ok {parts : List String} (hparts : ∀ part ∈ parts, IsStep part)
    {location l : List String} (hl : h.walk location parts = .ok l) : l = location ++ parts := by
  rw [eq_lead_of_walk hl, HostPath.lead_names fun part hpart =>
    ⟨(hparts part hpart).ne_dot, (hparts part hpart).ne_dots⟩]

/-- The last step of a walk is made from a directory. -/
theorem walk_concat_ok {start l parts : List String} {part : String}
    (hl : h.walk start (parts ++ [part]) = .ok l) :
    ∃ location number, h.node? location = some (.directory number) ∧
      h.walk location [part] = .ok l := by
  rw [walk_append] at hl
  generalize h.walk start parts = answer at hl
  cases answer with
  | error e => cases hl
  | ok location =>
    have hwalk : h.walk location [part] = .ok l := hl
    cases hnode : h.node? location with
    | none => simp [walk, hnode] at hwalk
    | some node =>
      cases node with
      | file number => simp [walk, hnode] at hwalk
      | directory number => exact ⟨location, number, hnode, hwalk⟩

/-- The host with nothing at the location or below it. -/
def without (h : HostSystem) (location : List String) : HostSystem :=
  { h with nodes := h.nodes.filter fun key _ => ¬location <+: key }

/-- Below what is removed nothing is left. -/
theorem node?_without_eq_none {location l : List String} (hlocation : location ≠ [])
    (hbelow : location <+: l) : (h.without location).node? l = none := by
  have hne : l ≠ [] := by
    rintro rfl
    exact hlocation (List.prefix_nil.1 hbelow)
  simp only [node?, List.isEmpty_iff, hne, if_false, without, Std.TreeMap.getElem?_filter']
  rw [Option.filter_eq_none_iff]
  simp [hbelow]

/-- Elsewhere everything is left. -/
theorem node?_without {location l : List String} (hbelow : ¬location <+: l) :
    (h.without location).node? l = h.node? l := by
  by_cases hne : l = []
  · simp [node?, hne]
  · simp only [node?, List.isEmpty_iff, hne, if_false, without, Std.TreeMap.getElem?_filter']
    cases h.nodes[l]? <;> simp [hbelow]

/-- A path that leads to a location whatever stands there does not go through it: it ends in the
name of what stands there. -/
theorem LeadsTo.getLast?_parts {path : HostPath} {location : List String}
    (hl : h.LeadsTo path location) (hlocation : location ≠ []) :
    path.parts.getLast? ≠ some "." ∧ path.parts.getLast? ≠ some ".." := by
  -- On the host with nothing at the location, the walk to it still succeeds.
  have hfound := hl (h.without location) rfl fun l hbelow => node?_without hbelow
  obtain ⟨hnul, hlength, hempty⟩ := locate_ok hfound
  rw [locate_eq_walk hnul hlength hempty] at hfound
  have hlast : ∀ part, path.parts.getLast? = some part →
      ∃ l number, (h.without location).node? l = some (.directory number) ∧
        (h.without location).walk l [part] = .ok location := by
    intro part hpart
    obtain ⟨first, hfirst⟩ := List.getLast?_eq_some_iff.1 hpart
    rw [hfirst] at hfound
    exact walk_concat_ok hfound
  constructor
  · intro hdot
    obtain ⟨l, number, hnode, hwalk⟩ := hlast _ hdot
    simp only [walk, hnode, if_true, Except.ok.injEq] at hwalk
    rw [node?_without_eq_none hlocation (hwalk ▸ List.prefix_refl _)] at hnode
    cases hnode
  · intro hdots
    obtain ⟨l, number, hnode, hwalk⟩ := hlast _ hdots
    have hne : (".." : String) ≠ "." := by decide
    simp only [walk, hnode, hne, if_false, if_true, Except.ok.injEq] at hwalk
    rw [node?_without_eq_none hlocation (hwalk ▸ List.dropLast_prefix l)] at hnode
    cases hnode

end HostSystem
end FlashVolume

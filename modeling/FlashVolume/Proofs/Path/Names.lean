import FlashVolume.Path.Join
import FlashVolume.Proofs.Path.Stages
import FlashVolume.Proofs.Text.Boundaries
import FlashVolume.Text.Search
import Mathlib.Data.List.Induction
/-!
# Paths of names

A path that is the mount point followed by names, each behind a separator, is `ofNames` of them.
Such a path is clean, its parent is the path of all names but the last, and it stands for the same
names below the root of a volume on the host.

`Admits` says which names lead to an entry on both kinds of volume: they are names for the host, and
neither the path of the volume nor that of the host is too long.

A name resolves in a directory if neither the name nor the path is longer than the configuration
allows (`Config.AllowsPath`).
-/

namespace FlashVolume

namespace Config

variable {config : Config} {length : Nat}

/-- The configuration has a longest path, and a path of so many bytes is not longer. -/
def AllowsPath (config : Config) (length : Nat) : Prop :=
  ∃ bound, config.maxAbsPathLength = .ok bound ∧ length ≤ bound

/-- What is allowed, by the sizes of the configuration. -/
theorem allowsPath_iff : config.AllowsPath length ↔
    config.sizeSum ≤ Word.maxUnsigned64 ∧ length ≤ config.sizeSum - 2 := by
  constructor
  · rintro ⟨bound, hbound, hle⟩
    obtain ⟨hsum, rfl⟩ := maxAbsPathLength_eq_ok_iff.1 hbound
    exact ⟨hsum, hle⟩
  · rintro ⟨hsum, hle⟩
    exact ⟨_, maxAbsPathLength_eq_ok_iff.2 ⟨hsum, rfl⟩, hle⟩

instance : Decidable (config.AllowsPath length) :=
  decidable_of_iff' _ allowsPath_iff

/-- Shorter paths are allowed too. -/
theorem AllowsPath.mono {length' : Nat} (h : config.AllowsPath length) (hle : length' ≤ length) :
    config.AllowsPath length' := by
  obtain ⟨bound, hbound, hlength⟩ := h
  exact ⟨bound, hbound, hle.trans hlength⟩

end Config

namespace Text

/-- What follows the stem of a text that starts with it. -/
theorem stripStem?_append (stem rest : String) : stripStem? stem (stem ++ rest) = some rest := by
  rw [stripStem?, String.toList_append, if_pos (List.isPrefixOf_iff_prefix.2 ⟨_, rfl⟩),
    List.drop_left, String.ofList_toList]

/-- A text starts with a stem if it is the stem and what follows. -/
theorem stripStem?_eq_some {stem s rest : String} :
    stripStem? stem s = some rest ↔ s = stem ++ rest := by
  constructor
  · intro h
    rw [stripStem?] at h
    split at h
    · next hprefix =>
      obtain ⟨after, hafter⟩ := List.isPrefixOf_iff_prefix.1 hprefix
      rw [← hafter, List.drop_left, Option.some.injEq] at h
      rw [← String.toList_inj, ← hafter, ← h, String.toList_append, String.toList_ofList]
    · cases h
  · rintro rfl
    exact stripStem?_append stem rest

end Text

namespace Path

/-- The path of names below a top. -/
def ofNames (top : String) (names : List String) : String :=
  names.foldl (fun dir name => dir ++ "/" ++ name) top

/-- No names lead to the top itself. -/
@[simp] theorem ofNames_nil (top : String) : ofNames top [] = top := rfl

/-- One more name stands behind one more separator. -/
@[simp] theorem ofNames_concat (top : String) (names : List String) (name : String) :
    ofNames top (names ++ [name]) = ofNames top names ++ "/" ++ name := by
  simp [ofNames]

/-- The characters of a path of names. -/
theorem toList_ofNames (top : String) (names : List String) :
    (ofNames top names).toList = top.toList ++ names.flatMap fun name => '/' :: name.toList := by
  induction names using List.reverseRecOn with
  | nil => simp
  | append_singleton names name ih => simp [ih]

/-- Names make a path longer. -/
theorem byteLength_ofNames (top : String) (names : List String) :
    Text.byteLength top ≤ Text.byteLength (ofNames top names) := by
  induction names using List.reverseRecOn with
  | nil => exact Nat.le_refl _
  | append_singleton names name ih =>
    rw [ofNames_concat]
    simp only [Text.byteLength, String.utf8ByteSize_append] at ih ⊢
    omega

/-- Names may be followed in two goes. -/
theorem ofNames_append (top : String) (first second : List String) :
    ofNames top (first ++ second) = ofNames (ofNames top first) second :=
  List.foldl_append

/-- The text can stand between two separators, and names an entry. -/
structure IsName (name : String) : Prop where
  ne_empty : name ≠ ""
  notMem : '/' ∉ name.toList
  ne_dot : name ≠ "."
  ne_dots : name ≠ ".."

instance (name : String) : Decidable (IsName name) :=
  decidable_of_iff (name ≠ "" ∧ '/' ∉ name.toList ∧ name ≠ "." ∧ name ≠ "..")
    ⟨fun ⟨h₁, h₂, h₃, h₄⟩ => ⟨h₁, h₂, h₃, h₄⟩, fun ⟨h₁, h₂, h₃, h₄⟩ => ⟨h₁, h₂, h₃, h₄⟩⟩

/-- Splitting a path of names finds the names again. -/
theorem splitOn_names {first : List Char} {names : List String} (hfirst : '/' ∉ first)
    (hnames : ∀ name ∈ names, '/' ∉ name.toList) :
    (first ++ names.flatMap fun name => '/' :: name.toList).splitOn '/' =
      first :: names.map String.toList := by
  induction names generalizing first with
  | nil => simpa using List.splitOn_eq_singleton hfirst
  | cons name names ih =>
    obtain ⟨hname, hnames⟩ := List.forall_mem_cons.1 hnames
    rw [List.flatMap_cons, List.cons_append, List.splitOn_append_cons_self_of_not_mem hfirst,
      ih hname hnames, List.map_cons]

/-- Two ways to write a text as a directory, a separator and a name are the same. -/
theorem append_separator_inj {dir dir' name name' : List Char} (hname : '/' ∉ name)
    (hname' : '/' ∉ name') (h : dir ++ '/' :: name = dir' ++ '/' :: name') :
    dir = dir' ∧ name = name' := by
  rcases List.append_eq_append_iff.1 h with ⟨mid, hdir, hrest⟩ | ⟨mid, hdir, hrest⟩
  · cases mid with
    | nil => exact ⟨by simpa using hdir.symm, by simpa using hrest⟩
    | cons c chars =>
      rw [List.cons_append] at hrest
      obtain ⟨-, rfl⟩ := List.cons.inj hrest
      exact absurd (by simp) hname
  · cases mid with
    | nil => exact ⟨by simpa using hdir, by simpa using hrest.symm⟩
    | cons c chars =>
      rw [List.cons_append] at hrest
      obtain ⟨-, rfl⟩ := List.cons.inj hrest
      exact absurd (by simp) hname'

/-- The parent of a path drops its last name. -/
theorem parent_ofNames_concat {top : String} (htop : top ≠ "") (names : List String)
    {name : String} (hname : '/' ∉ name.toList) :
    parent (ofNames top (names ++ [name])) = ofNames top names := by
  have hsplit : (ofNames top (names ++ [name])).toList =
      (ofNames top names).toList ++ '/' :: name.toList := by
    simp
  rw [parent_of_toList hname hsplit, String.ofList_toList]
  rw [toList_ofNames]
  simp [htop]

/-- What stands before a separator in a path of names is the path of the first of them, or it
stands in the top. -/
theorem exists_of_toList_ofNames {top : String} {names : List String}
    (hnames : ∀ name ∈ names, '/' ∉ name.toList) {before after : List Char}
    (h : (ofNames top names).toList = before ++ '/' :: after) :
    (∃ first name rest, names = first ++ name :: rest ∧ before = (ofNames top first).toList) ∨
      ∃ after', top.toList = before ++ '/' :: after' := by
  -- From the last name back: the separator stands in front of it, or before that.
  induction names using List.reverseRecOn generalizing after with
  | nil => exact .inr ⟨after, h⟩
  | append_singleton names name ih =>
    have hname : '/' ∉ name.toList := hnames name (by simp)
    have hsplit : (ofNames top names).toList ++ '/' :: name.toList = before ++ '/' :: after := by
      rw [← h]
      simp
    rcases List.append_eq_append_iff.1 hsplit with ⟨mid, hbefore, hrest⟩ | ⟨mid, hdir, hrest⟩
    · cases mid with
      | nil => exact .inl ⟨names, name, [], rfl, by simpa using hbefore⟩
      | cons c chars =>
        rw [List.cons_append] at hrest
        obtain ⟨-, hmid⟩ := List.cons.inj hrest
        exact absurd (by simp [hmid]) hname
    · cases mid with
      | nil => exact .inl ⟨names, name, [], rfl, by simpa using hdir.symm⟩
      | cons c chars =>
        rw [List.cons_append] at hrest
        obtain ⟨rfl, -⟩ := List.cons.inj hrest
        rcases ih (fun n hn => hnames n (by simp [hn])) hdir with
          ⟨first, n, rest, rfl, hfirst⟩ | ⟨after', htop⟩
        · exact .inl ⟨first, n, rest ++ [name], by simp, hfirst⟩
        · exact .inr ⟨after', htop⟩

/-- Paths of names are the same only if the names are. -/
theorem ofNames_inj {top : String} {names names' : List String}
    (hnames : ∀ name ∈ names, '/' ∉ name.toList) (hnames' : ∀ name ∈ names', '/' ∉ name.toList)
    (h : ofNames top names = ofNames top names') : names = names' := by
  induction names using List.reverseRecOn generalizing names' with
  | nil =>
    cases names' with
    | nil => rfl
    | cons name rest =>
      have hlength := congrArg (fun path => path.toList.length) h
      simp [toList_ofNames] at hlength
  | append_singleton names name ih =>
    cases names' using List.reverseRecOn with
    | nil =>
      have hlength := congrArg (fun path => path.toList.length) h
      simp [toList_ofNames] at hlength
    | append_singleton first last =>
      have hsplit : (ofNames top names).toList ++ '/' :: name.toList =
          (ofNames top first).toList ++ '/' :: last.toList := by
        simpa using congrArg String.toList h
      obtain ⟨hdir, hname⟩ := append_separator_inj (hnames name (by simp))
        (hnames' last (by simp)) hsplit
      rw [ih (fun n hn => hnames n (by simp [hn])) (fun n hn => hnames' n (by simp [hn]))
        (String.toList_inj.1 hdir), String.toList_inj.1 hname]

/-! ### Cleaning -/

/-- A name has characters and is no dots. -/
theorem segment_ne {name : String} (h : IsName name) :
    name.toList ≠ [] ∧ name.toList ≠ ['.'] ∧ name.toList ≠ ['.', '.'] := by
  refine ⟨?_, ?_, ?_⟩
  · exact fun heq => h.ne_empty (String.toList_inj.1 heq)
  · exact fun heq => h.ne_dot (String.toList_inj.1 heq)
  · exact fun heq => h.ne_dots (String.toList_inj.1 heq)

/-- Names go onto the stack, one by one. -/
theorem foldlM_stackSegment_names {names : List String} (hnames : ∀ name ∈ names, IsName name)
    (stack : List (List Char)) :
    (names.map String.toList).foldlM stackSegment stack =
      some ((names.map String.toList).reverse ++ stack) := by
  induction names generalizing stack with
  | nil => rfl
  | cons name names ih =>
    obtain ⟨hname, hnames⟩ := List.forall_mem_cons.1 hnames
    obtain ⟨hempty, hdot, hdots⟩ := segment_ne hname
    have hpush : stackSegment stack name.toList = some (name.toList :: stack) := by
      simp [stackSegment, hempty, hdot, hdots]
    rw [List.map_cons, List.foldlM_cons, hpush]
    change (names.map String.toList).foldlM stackSegment (name.toList :: stack) = _
    rw [ih hnames]
    simp

/-- **A path of names is clean.** -/
theorem normalizeChars_names {names : List String} (hnames : ∀ name ∈ names, IsName name) :
    normalizeChars (names.flatMap fun name => '/' :: name.toList) =
      some (names.flatMap fun name => '/' :: name.toList) := by
  cases names using List.reverseRecOn with
  | nil => rfl
  | append_singleton first last =>
  have hshift : ∀ (l : List String) (end' : List Char),
      (l.flatMap fun name => '/' :: name.toList) ++ '/' :: end' =
        '/' :: ((l.map String.toList).flatMap (· ++ ['/']) ++ end') := by
    intro l end'
    induction l with
    | nil => rfl
    | cons name l ih => simp [ih]
  -- No separator stands behind the last name, so it does not go onto the stack.
  have hsep : ∀ segment ∈ [] :: first.map String.toList, '/' ∉ segment := by
    intro segment hsegment
    rcases List.mem_cons.1 hsegment with rfl | hsegment
    · exact List.not_mem_nil
    · obtain ⟨name, hname, rfl⟩ := List.mem_map.1 hsegment
      exact (hnames name (by simp [hname])).notMem
  have htext : ((first ++ [last]).flatMap fun name => '/' :: name.toList) =
      ([] :: first.map String.toList).flatMap (· ++ ['/']) ++ last.toList := by
    rw [List.flatMap_append, List.flatMap_singleton, hshift]
    rfl
  have hstack : stackSegments true ([] :: first.map String.toList) =
      some (first.map String.toList).reverse := by
    have hfold : (first.map String.toList).foldlM stackSegment [] =
        some ((first.map String.toList).reverse ++ []) :=
      foldlM_stackSegment_names (fun n hn => hnames n (by simp [hn])) []
    rw [List.append_nil] at hfold
    exact hfold
  have hlast := (hnames last (by simp)).notMem
  rw [htext, normalizeChars_eq_cleanSegments, cleanSegments_segments hsep hlast]
  simp only [List.head?_cons, decide_true, hstack, Option.map_some, trail_reverse]
  simp [rootMark]

/-- A path is as long as it says, if nothing ends it. -/
theorem trimSeparators_of_last {path : String} {before : List Char} {c : Char}
    (hpath : path.toList = before ++ [c]) (hc : c ≠ '/') : trimSeparators path = path := by
  have hkept : path.toList.reverse.dropWhile (· = '/') = path.toList.reverse := by
    rw [hpath, List.reverse_append, List.reverse_singleton, List.singleton_append,
      List.dropWhile_cons_of_neg (by simpa using hc)]
  rw [trimSeparators, hkept, List.reverse_reverse, String.ofList_toList]

/-- The last character of a path that ends in a name is one of the name. -/
theorem exists_last_of_name (dir : List Char) {name : String} (hname : IsName name) :
    ∃ before c, dir ++ '/' :: name.toList = before ++ [c] ∧ c ≠ '/' := by
  obtain ⟨before, c, hsplit⟩ : ∃ before c, name.toList = before ++ [c] := by
    cases hchars : name.toList using List.reverseRecOn with
    | nil => exact absurd hchars (segment_ne hname).1
    | append_singleton before c => exact ⟨before, c, rfl⟩
  refine ⟨dir ++ '/' :: before, c, by simp [hsplit], ?_⟩
  rintro rfl
  exact hname.notMem (by simp [hsplit])

/-- A stage of a path of names is the path of the first of them. -/
theorem exists_of_mem_stages {segment : String} {names : List String}
    (hsegment : '/' ∉ segment.toList) (hnames : ∀ name ∈ names, '/' ∉ name.toList)
    {stage : String} (h : stage ∈ stages (ofNames ("/" ++ segment) names)) :
    ∃ first rest, names = first ++ rest ∧ stage = ofNames ("/" ++ segment) first := by
  obtain ⟨chars, hchars, rfl⟩ := List.mem_map.1 h
  rcases mem_stagesFrom_iff.1 hchars with hwhole | ⟨mid, after, hsplit, hne, hstage⟩
  · refine ⟨names, [], by simp, ?_⟩
    rw [hwhole, List.reverse_nil, List.nil_append, String.ofList_toList]
  · rw [List.reverse_nil, List.nil_append] at hne hstage
    subst hstage
    rcases exists_of_toList_ofNames hnames hsplit with
      ⟨first, name, rest, rfl, rfl⟩ | ⟨after', htop⟩
    · exact ⟨first, name :: rest, rfl, String.ofList_toList⟩
    · -- The only separator of the top is its first character.
      cases chars with
      | nil => exact absurd rfl hne
      | cons c chars =>
        have hseparator : segment.toList = chars ++ '/' :: after' := by
          rw [String.toList_append] at htop
          exact (List.cons.inj htop).2
        exact absurd (by simp [hseparator]) hsegment

/-- The path of a name in a directory has one byte more than the two of them. -/
theorem byteLength_joined (dir name : String) :
    Text.byteLength (dir ++ "/" ++ name) = Text.byteLength dir + 1 + Text.byteLength name := by
  simp only [Text.byteLength, String.utf8ByteSize_append]
  rfl

/-- **What `resolve` answers** for a directory and a name: the length of the name is looked at
first, and then that of the whole path. -/
theorem resolve_eq {dir name : String} {config : Config} {bound : Nat}
    (hbound : config.maxAbsPathLength = .ok bound) (hdir : dir ≠ "") (hname : name ≠ "") :
    resolve dir name config =
      if config.maxFileNameLength < Text.byteLength name then
        .error (.tooLong (Text.byteLength name) config.maxFileNameLength)
      else if bound < Text.byteLength (dir ++ "/" ++ name) then
        .error (.tooLong (Text.byteLength (dir ++ "/" ++ name)) bound)
      else .ok (dir ++ "/" ++ name) := by
  have hjoin : join dir name bound =
      .ok ⟨Text.takeBytes bound (dir ++ "/" ++ name), Text.byteLength (dir ++ "/" ++ name)⟩ := by
    rw [join, if_neg (by simp [hdir, hname]), byteLength_joined]
  rw [resolve, hbound]
  refine if_congr Iff.rfl rfl ?_
  simp only [bind, Except.bind, hjoin]
  by_cases hlong : bound < Text.byteLength (dir ++ "/" ++ name)
  · have hcut := Text.byteLength_takeBytes_le bound (dir ++ "/" ++ name)
    have hless := Nat.lt_of_le_of_lt hcut hlong
    rw [if_pos hlong]
    simp [Joined.isTruncated, hless]
  · rw [if_neg hlong, Text.takeBytes_of_fits (Nat.le_of_not_lt hlong)]
    simp [Joined.isTruncated]

/-- Without a longest path, a name that is not too long itself does not resolve. -/
theorem resolve_of_overflow {config : Config} {e : Error} (h : config.maxAbsPathLength = .error e)
    (dir name : String) : resolve dir name config =
      if config.maxFileNameLength < Text.byteLength name then
        .error (.tooLong (Text.byteLength name) config.maxFileNameLength)
      else .error e := by
  rw [resolve, h]
  rfl

/-- A name that is not too long resolves in a directory, if its path is not too long either. -/
theorem resolve_of_fits {dir name : String} {config : Config} (hdir : dir ≠ "") (hname : name ≠ "")
    (hlength : Text.byteLength name ≤ config.maxFileNameLength)
    (hpath : config.AllowsPath (Text.byteLength (dir ++ "/" ++ name))) :
    resolve dir name config = .ok (dir ++ "/" ++ name) := by
  obtain ⟨bound, hbound, hle⟩ := hpath
  rw [resolve_eq hbound hdir hname, if_neg (Nat.not_lt.2 hlength), if_neg (Nat.not_lt.2 hle)]

/-- A name does not resolve if it is too long, or if its path is. -/
theorem exists_resolve_error {dir name : String} {config : Config} (hdir : dir ≠ "")
    (hname : name ≠ "")
    (h : ¬(Text.byteLength name ≤ config.maxFileNameLength ∧
      config.AllowsPath (Text.byteLength (dir ++ "/" ++ name)))) :
    ∃ e, resolve dir name config = .error e := by
  cases hbound : config.maxAbsPathLength with
  | error e =>
    rw [resolve_of_overflow hbound]
    split
    · exact ⟨_, rfl⟩
    · exact ⟨_, rfl⟩
  | ok bound =>
    rw [resolve_eq hbound hdir hname]
    split_ifs with hlength hpath
    · exact ⟨_, rfl⟩
    · exact ⟨_, rfl⟩
    · exact absurd ⟨Nat.le_of_not_lt hlength, bound, hbound, Nat.le_of_not_lt hpath⟩ h

/-- **A name that resolves is not cut,** and neither it nor its directory is missing. -/
theorem resolve_eq_ok {dir name path : String} {config : Config}
    (h : resolve dir name config = .ok path) :
    dir ≠ "" ∧ name ≠ "" ∧ path = dir ++ "/" ++ name := by
  cases hbound : config.maxAbsPathLength with
  | error e =>
    rw [resolve_of_overflow hbound] at h
    split at h <;> cases h
  | ok bound =>
    by_cases hempty : dir = "" ∨ name = ""
    · have hjoin : join dir name bound = .error (.invalidInput "missing directory or name") :=
        if_pos (by simpa using hempty)
      simp only [resolve, hbound, bind, Except.bind, hjoin] at h
      split at h <;> cases h
    · obtain ⟨hdir, hname⟩ := not_or.1 hempty
      rw [resolve_eq hbound hdir hname] at h
      split_ifs at h
      exact ⟨hdir, hname, (Except.ok.inj h).symm⟩

/-- A resolved path is the directory, a separator and the name. -/
theorem eq_of_resolve {dir name path : String} {config : Config}
    (h : resolve dir name config = .ok path) : path = dir ++ "/" ++ name :=
  (resolve_eq_ok h).2.2

/-- A name that resolves is not too long, and neither is its path. -/
theorem fits_of_resolve {dir name path : String} {config : Config}
    (h : resolve dir name config = .ok path) :
    Text.byteLength name ≤ config.maxFileNameLength ∧
      config.AllowsPath (Text.byteLength (dir ++ "/" ++ name)) := by
  obtain ⟨hdir, hname, -⟩ := resolve_eq_ok h
  by_contra hlong
  obtain ⟨e, he⟩ := exists_resolve_error hdir hname hlong
  cases h.symm.trans he

/-- A name resolves only under a configuration that has a longest path. -/
theorem exists_bound_of_resolve {dir name path : String} {config : Config}
    (h : resolve dir name config = .ok path) : ∃ bound, config.maxAbsPathLength = .ok bound :=
  (fits_of_resolve h).2.imp fun _ hbound => hbound.1

/-- The only overflow of a resolution is that of the longest path. -/
theorem maxAbsPathLength_of_resolve {dir name : String} {config : Config}
    (h : resolve dir name config = .error .overflow) :
    config.maxAbsPathLength = .error .overflow := by
  cases hbound : config.maxAbsPathLength with
  | error e => rw [(Config.maxAbsPathLength_eq_error_iff.1 hbound).2]
  | ok bound =>
    by_cases hempty : dir = "" ∨ name = ""
    · have hjoin : join dir name bound = .error (.invalidInput "missing directory or name") :=
        if_pos (by simpa using hempty)
      simp only [resolve, hbound, bind, Except.bind, hjoin] at h
      split at h <;> cases h
    · obtain ⟨hdir, hname⟩ := not_or.1 hempty
      rw [resolve_eq hbound hdir hname] at h
      split_ifs at h <;> cases h

/-- A path that resolves is longer than the root. -/
theorem ne_root_of_resolve {dir name path : String} {config : Config}
    (h : resolve dir name config = .ok path) : path ≠ "/" := by
  obtain ⟨hdir, -, rfl⟩ := resolve_eq_ok h
  have hpos : 0 < Text.byteLength dir :=
    Nat.pos_of_ne_zero (mt String.utf8ByteSize_eq_zero_iff.1 hdir)
  intro hroot
  have hlength := congrArg Text.byteLength hroot
  rw [byteLength_joined] at hlength
  have hone : Text.byteLength "/" = 1 := rfl
  have hname : Text.byteLength name = 0 := by omega
  omega

end Path
end FlashVolume

import FlashVolume.Host.Volume
import FlashVolume.Proofs.Host.Paths
import FlashVolume.Proofs.Memory.Steps
/-!
# What a path stands for

Section 10.2 of the specification: `real_path`.

Two tests decide whether a path of a mounted volume stands for a path of the host: it has to be the
mount point, or to go on behind it with exactly one separator, and what follows may not have a
segment `..`. `StandsFor` says so of the texts. A path of the host that is stood for is the root
with ordinary names below it (`StandsFor.exists_names`); every other path is refused by each call
that names it, whatever the host is (`answer_refused`).
-/

namespace FlashVolume

namespace HostPath

/-- Segments have no separator. -/
theorem notMem_of_mem_splitSeparators {text segment : String}
    (h : segment ∈ splitSeparators text) : '/' ∉ segment.toList := by
  obtain ⟨piece, hpiece, rfl⟩ := List.mem_map.1 h
  rw [String.toList_ofList]
  -- By induction on the length: the first piece ends at the first separator.
  generalize text.toList = cs at hpiece
  induction hn : cs.length using Nat.strong_induction_on generalizing cs with
  | _ n ih =>
    by_cases hc : '/' ∈ cs
    · obtain ⟨first, rest, rfl, hfirst⟩ := List.eq_append_cons_of_mem hc
      rw [List.splitOn_append_cons_self_of_not_mem hfirst] at hpiece
      rcases List.mem_cons.1 hpiece with rfl | hpiece
      · exact hfirst
      · refine ih rest.length ?_ rest hpiece rfl
        rw [← hn, List.length_append, List.length_cons]
        omega
    · rw [List.splitOn_eq_singleton hc, List.mem_singleton] at hpiece
      exact hpiece ▸ hc

/-- A name of an entry in a directory, not a way to somewhere else. -/
structure IsOrdinary (name : String) : Prop where
  ne_empty : name ≠ ""
  ne_dot : name ≠ "."
  ne_dots : name ≠ ".."
  notMem : '/' ∉ name.toList

end HostPath

namespace HostVolume

variable {v : HostVolume} {path : String} {real : HostPath}

/-- What follows the mount point and a separator in a path that stays below the root. -/
def StaysBelow (rest : String) : Prop :=
  rest.toList.head? ≠ some '/' ∧ ".." ∉ HostPath.splitSeparators rest

instance (rest : String) : Decidable (StaysBelow rest) :=
  inferInstanceAs (Decidable (_ ∧ _))

/-- The names that such a text stands for. -/
def namesOf (rest : String) : List String :=
  (HostPath.splitSeparators rest).filter fun segment => segment ≠ "" ∧ segment ≠ "."

/-- The path of the volume stands for the path of the host. -/
inductive StandsFor (v : HostVolume) : String → HostPath → Prop where
  | root : StandsFor v v.mountPoint v.root
  | below {rest : String} (h : StaysBelow rest) :
      StandsFor v (v.mountPoint ++ "/" ++ rest) (v.root.pushAll (namesOf rest))

/-- What is left of a path gives its names, if it does not climb. -/
theorem names?_eq_some {rest : String} {names : List String} :
    names? rest = some names ↔ StaysBelow rest ∧ names = namesOf rest := by
  rw [names?, StaysBelow]
  split
  · next h => exact iff_of_false (fun h => by cases h) fun h' => by tauto
  · next h =>
    rw [not_or] at h
    rw [Option.some.injEq, and_iff_right h, eq_comm]
    rfl

/-- **What a path stands for,** if it stands for anything. -/
theorem hostPath?_eq_some : v.hostPath? path = some real ↔ v.StandsFor path real := by
  constructor
  · intro h
    rw [hostPath?] at h
    split at h
    · next hroot =>
      cases h
      exact hroot ▸ .root
    · obtain ⟨behind, hbehind, h⟩ := Option.bind_eq_some_iff.1 h
      obtain ⟨rest, hrest, h⟩ := Option.bind_eq_some_iff.1 h
      obtain ⟨names, hnames, h⟩ := Option.bind_eq_some_iff.1 h
      obtain ⟨hbelow, rfl⟩ := names?_eq_some.1 hnames
      cases h
      rw [Text.stripStem?_eq_some.1 hbehind, Text.stripStem?_eq_some.1 hrest,
        ← String.append_assoc]
      exact .below hbelow
  · rintro (_ | @⟨rest, hbelow⟩)
    · exact if_pos rfl
    · have hne : v.mountPoint ++ "/" ++ rest ≠ v.mountPoint := by
        intro heq
        have hlength := congrArg (fun s : String => s.toList.length) heq
        simp only [String.toList_append, List.length_append] at hlength
        have : "/".toList.length = 1 := by rfl
        omega
      rw [hostPath?, if_neg hne, String.append_assoc, Text.stripStem?_append, Option.bind_eq_bind,
        Option.bind_some, Text.stripStem?_append, Option.bind_eq_bind, Option.bind_some,
        names?_eq_some.2 ⟨hbelow, rfl⟩]
      rfl

/-- **The translation, exactly**: a path is resolved to what it stands for. -/
theorem realPath_eq_ok (hmounted : v.mounted = true) :
    v.realPath path = .ok real ↔ v.StandsFor path real := by
  rw [← hostPath?_eq_some, realPath, if_pos hmounted]
  cases v.hostPath? path with
  | none => exact iff_of_false (fun h => by cases h) fun h => by cases h
  | some found => rw [Except.ok.injEq, Option.some.injEq]

/-- The names are ordinary ones. -/
theorem isOrdinary_namesOf {rest : String} (h : StaysBelow rest) :
    ∀ name ∈ namesOf rest, HostPath.IsOrdinary name := by
  intro name hname
  obtain ⟨hmem, hkept⟩ := List.mem_filter.1 hname
  obtain ⟨hempty, hdot⟩ := of_decide_eq_true hkept
  exact ⟨hempty, hdot, fun hdots => h.2 (hdots ▸ hmem),
    HostPath.notMem_of_mem_splitSeparators hmem⟩

/-- **Only names below the root are stood for.** -/
theorem StandsFor.exists_names (h : v.StandsFor path real) :
    ∃ names, (∀ name ∈ names, HostPath.IsOrdinary name) ∧ real = v.root.pushAll names ∧
      real.isAbsolute = v.root.isAbsolute ∧ real.parts = v.root.parts ++ names := by
  have hpush : ∀ names : List String, (∀ name ∈ names, HostPath.IsOrdinary name) →
      (v.root.pushAll names).isAbsolute = v.root.isAbsolute ∧
        (v.root.pushAll names).parts = v.root.parts ++ names := fun names hnames =>
    have hne : ∀ name ∈ names, name ≠ "" := fun name hname => (hnames name hname).ne_empty
    ⟨HostPath.isAbsolute_pushAll hne, HostPath.parts_pushAll hne⟩
  cases h with
  | root => exact ⟨[], List.forall_mem_nil _, rfl, hpush [] (List.forall_mem_nil _)⟩
  | @below rest hbelow =>
    have hnames := isOrdinary_namesOf hbelow
    exact ⟨namesOf rest, hnames, rfl, hpush _ hnames⟩

/-! ### Refusals -/

/-- A path that stands for nothing is refused. -/
theorem realPath_refused (hmounted : v.mounted = true) (h : ∀ real, ¬v.StandsFor path real) :
    v.realPath path = .error (.invalidPath path) := by
  have hnone : v.hostPath? path = none :=
    Option.eq_none_iff_forall_ne_some.2 fun real hreal => h real (hostPath?_eq_some.1 hreal)
  rw [realPath, if_pos hmounted, hnone]

/-- A call that names a path is made on the path that it stands for. -/
theorem exists_onPath {α : Type} {c : Call α} (h : c.path? = some path) :
    ∃ call : HostPath → HostVolume → Answer α, ∀ v, backend.answer c v = v.onPath path call := by
  cases c with
  | statvfs p => cases h; exact ⟨_, fun _ => rfl⟩
  | «open» p mode => cases h; exact ⟨_, fun _ => rfl⟩
  | stat p => cases h; exact ⟨_, fun _ => rfl⟩
  | opendir p => cases h; exact ⟨_, fun _ => rfl⟩
  | mkdir p => cases h; exact ⟨_, fun _ => rfl⟩
  | unlink p => cases h; exact ⟨_, fun _ => rfl⟩
  | _ => cases h

/-- **A path that stands for nothing is refused** by every call that names it, and nothing is done
to the host. -/
theorem answer_refused (hmounted : v.mounted = true) (h : ∀ real, ¬v.StandsFor path real)
    {α : Type} {c : Call α} (hpath : c.path? = some path) :
    backend.answer c v = (.error (.invalidPath path), v) := by
  obtain ⟨call, hcall⟩ := exists_onPath hpath
  rw [hcall, onPath, realPath_refused hmounted h]

end HostVolume
end FlashVolume

import FlashVolume.Proofs.Host.Realm
import FlashVolume.Proofs.Storage.Abreast
/-!
# Calls of the host in a realm

A call on a path that passes through the realm, or on what is open, does the same on two hosts that
are alike, and spares what is outside. `Confined` says so of its two answers. A call on a path makes
its change at the target of the path; only `createDirectories` makes others, at locations that the
path leads through. It goes up to a parent as long as something is missing (`createBelow`), and
takes a directory that cannot be created for one that is there (`orStands`).
-/

namespace FlashVolume

namespace HostSystem

/-- A directory that could not be created may be there already. -/
def orStands (path : HostPath) : Answer Unit → Answer Unit
  | (.ok (), h) => (.ok (), h)
  | (.error e, h) => if h.isDirectory path then (.ok (), h) else (.error e, h)

/-- Creates a directory after the directories on the way to it. -/
def createBelow (path : HostPath) (h : HostSystem) : Answer Unit :=
  match path.parent? with
  | none => (.error (.text .uncategorized "failed to create whole tree"), h)
  | some parent =>
    match createDirectories parent h with
    | (.error e, h) => (.error e, h)
    | (.ok (), h) => orStands path (createDirectory path h)

variable {path : HostPath}

/-- The empty path asks for no directory. -/
theorem createDirectories_isEmpty (hempty : path.isEmpty = true) (h : HostSystem) :
    createDirectories path h = (.ok (), h) := by
  rw [createDirectories, if_pos hempty]

/-- The directories on the way are created only if something is missing. -/
theorem createDirectories_missing (hempty : path.isEmpty = false) {e : SystemError}
    {h' : HostSystem} (hfirst : createDirectory path h = (.error e, h'))
    (hkind : e.kind = .notFound) : createDirectories path h = createBelow path h' := by
  rw [createDirectories, hempty, if_neg (by decide), hfirst]
  dsimp only
  rw [if_pos hkind, createBelow]
  split
  · next hparent => rw [hparent]
  · next parent hparent =>
    rw [hparent]
    dsimp only
    cases createDirectories parent h' with
    | mk answer h'' => cases answer <;> rfl

/-- The directories above are made only if one is missing. -/
theorem createDirectories_settled (hempty : path.isEmpty = false)
    (hkind : ∀ e, (createDirectory path h).1 = .error e → e.kind ≠ .notFound) :
    createDirectories path h = orStands path (createDirectory path h) := by
  rw [createDirectories, hempty, if_neg (by decide)]
  cases hfirst : createDirectory path h with
  | mk answer h' =>
    cases answer with
    | ok _ => rfl
    | error e => exact if_neg (hkind e (by rw [hfirst]))

end HostSystem

namespace Realm

variable {r : Realm} {built : List String → Prop} {h h₁ h₂ : HostSystem} {path : HostPath}
  {l : List String}

/-! ### Calls -/

/-- The call does the same on two hosts, and spares what is outside. -/
abbrev Confined (r : Realm) (built : List String → Prop) {α : Type} (h : HostSystem)
    (x y : HostSystem.Answer α) : Prop :=
  Abreast r.Alike (r.Spares built) h x y

namespace Alike

variable {α : Type} (ha : r.Alike h₁ h₂)
include ha

/-- An answer that looks at nothing is confined. -/
theorem unchanged (answer : Except SystemError α) :
    r.Confined built h₁ (answer, h₁) (answer, h₂) :=
  ⟨rfl, ha, .refl h₁⟩

/-! #### Directories -/

/-- One directory is made at the place its path leads to. -/
theorem createDirectory (hp : r.Passes path)
    (hbuilt : r.Inside (r.target path) ∨ built (r.target path)) :
    r.Confined built h₁ (h₁.createDirectory path) (h₂.createDirectory path) := by
  rw [HostSystem.createDirectory, HostSystem.createDirectory, ← ha.locate hp]
  cases hl : h₁.locate path with
  | error e => exact ha.unchanged _
  | ok l =>
    obtain rfl := ha.within.target_of_locate hl
    dsimp only
    rw [← ha.node _ hp.reaches_target]
    cases hnode : h₁.node? (r.target path) with
    | some node => exact ha.unchanged _
    | none => exact ⟨rfl, ha.build hnode, .build hnode hbuilt⟩

omit ha in
/-- Whether a directory stands is seen at the place its path leads to. -/
theorem orStands {x y : HostSystem.Answer Unit} (hp : r.Passes path)
    (hxy : r.Confined built h x y) :
    r.Confined built h (HostSystem.orStands path x) (HostSystem.orStands path y) := by
  obtain ⟨a, h₁⟩ := x
  obtain ⟨b, h₂⟩ := y
  obtain ⟨hanswer, ha, hs⟩ := hxy
  obtain rfl : a = b := hanswer
  cases a with
  | ok _ => exact ⟨rfl, ha, hs⟩
  | error e =>
    rw [HostSystem.orStands, HostSystem.orStands, ← Alike.isDirectory ha hp]
    split
    · exact ⟨rfl, ha, hs⟩
    · exact ⟨rfl, ha, hs⟩

/-- A directory is made below those above it. -/
theorem createBelow (hp : r.Passes path)
    (hparent : ∀ parent, path.parent? = some parent →
      r.Confined built h₁ (h₁.createDirectories parent) (h₂.createDirectories parent))
    (hcreate : ∀ {h₁ h₂ : HostSystem}, r.Alike h₁ h₂ →
      r.Confined built h₁ (h₁.createDirectory path) (h₂.createDirectory path)) :
    r.Confined built h₁ (h₁.createBelow path) (h₂.createBelow path) := by
  rw [HostSystem.createBelow, HostSystem.createBelow]
  cases hsome : path.parent? with
  | none => exact ha.unchanged _
  | some parent =>
    have habove := hparent parent hsome
    dsimp only
    generalize h₁.createDirectories parent = x at habove ⊢
    generalize h₂.createDirectories parent = y at habove ⊢
    obtain ⟨a, h₁'⟩ := x
    obtain ⟨b, h₂'⟩ := y
    obtain rfl : a = b := habove.answer
    cases a with
    | error e => exact habove
    | ok _ => exact habove.trans (fun _ _ _ => Spares.trans) (orStands hp (hcreate habove.after))

/-- **Directories are created only where the path leads through.** -/
theorem createDirectories (hp : r.Passes path)
    (hbuilt : ∀ l, r.Reaches l → r.Inside l ∨ built l) :
    r.Confined built h₁ (h₁.createDirectories path) (h₂.createDirectories path) := by
  -- By induction on the number of parts, which the parent has less of.
  induction hn : path.parts.length using Nat.strong_induction_on generalizing path h₁ h₂ with
  | _ n ih =>
    cases hempty : path.isEmpty with
    | true =>
      rw [HostSystem.createDirectories_isEmpty hempty, HostSystem.createDirectories_isEmpty hempty]
      exact ha.unchanged _
    | false =>
      have hcreate : ∀ {h₁ h₂ : HostSystem}, r.Alike h₁ h₂ →
          r.Confined built h₁ (h₁.createDirectory path) (h₂.createDirectory path) :=
        fun ha => ha.createDirectory hp (hbuilt _ hp.reaches_target)
      have hfirst := hcreate ha
      by_cases hmissing : ∃ e, (h₁.createDirectory path).1 = .error e ∧ e.kind = .notFound
      · obtain ⟨e, he, hkind⟩ := hmissing
        have he' := hfirst.answer ▸ he
        rw [HostSystem.createDirectories_missing hempty (Prod.ext he rfl) hkind,
          HostSystem.createDirectories_missing hempty (Prod.ext he' rfl) hkind]
        refine hfirst.trans (fun _ _ _ => Spares.trans) (hfirst.after.createBelow hp ?_ hcreate)
        intro parent hparent
        exact ih parent.parts.length (hn ▸ HostPath.parent?_length_lt hparent) hfirst.after
          (hp.parent hparent) rfl
      · have hsettled : ∀ e, (h₁.createDirectory path).1 = .error e → e.kind ≠ .notFound :=
          fun e he hkind => hmissing ⟨e, he, hkind⟩
        rw [HostSystem.createDirectories_settled hempty hsettled,
          HostSystem.createDirectories_settled hempty (hfirst.answer ▸ hsettled)]
        exact orStands hp hfirst

/-- A directory is removed at the place its path leads to. -/
theorem removeDirectory (hp : r.Passes path) (hin : r.Inside (r.target path)) :
    r.Confined built h₁ (h₁.removeDirectory path) (h₂.removeDirectory path) := by
  rw [HostSystem.removeDirectory, HostSystem.removeDirectory, ← ha.locate hp]
  cases hl : h₁.locate path with
  | error e => exact ha.unchanged _
  | ok l =>
    obtain rfl := ha.within.target_of_locate hl
    dsimp only
    rw [← ha.names hin]
    split
    · exact ha.unchanged _
    · split
      · exact ha.unchanged _
      · exact ⟨rfl, ha.remove _, .remove hin⟩

/-- A file is removed at the place its path leads to. -/
theorem removeFile (hp : r.Passes path) (hin : r.Inside (r.target path)) :
    r.Confined built h₁ (h₁.removeFile path) (h₂.removeFile path) := by
  rw [HostSystem.removeFile, HostSystem.removeFile, ← ha.find hp]
  cases hf : h₁.find path with
  | error e => exact ha.unchanged _
  | ok found =>
    obtain ⟨l, node⟩ := found
    obtain ⟨rfl, -⟩ := ha.within.target_of_find hf
    cases node with
    | directory number => exact ha.unchanged _
    | file number => exact ⟨rfl, ha.remove _, .remove hin⟩

/-- What a directory shows is below it, so inside too. -/
theorem openDirectory (hp : r.Passes path) (hin : r.Inside (r.target path)) :
    r.Confined built h₁ (h₁.openDirectory path) (h₂.openDirectory path) := by
  rw [HostSystem.openDirectory, HostSystem.openDirectory, ← ha.find hp]
  cases hf : h₁.find path with
  | error e => exact ha.unchanged _
  | ok found =>
    obtain ⟨l, node⟩ := found
    obtain ⟨rfl, -⟩ := ha.within.target_of_find hf
    cases node with
    | file number => exact ha.unchanged _
    | directory number =>
      dsimp only
      rw [← ha.directories]
      exact ⟨rfl, ha.withDirectories (ha.within.directories.add hin), .of_eq rfl rfl⟩

/-- The next entry was fixed when the directory was opened. -/
theorem nextEntry (dir : Nat) :
    r.Confined built h₁ (h₁.nextEntry dir) (h₂.nextEntry dir) := by
  rw [HostSystem.nextEntry, HostSystem.nextEntry, ← ha.directories]
  cases hd : h₁.directories.get? dir with
  | none => exact ha.unchanged _
  | some d =>
    have hin := ha.within.directories dir d hd
    -- Whatever is delivered, the record of the directory changes in the same way.
    have hset : ∀ (answer : Except SystemError Entry) (names : List String),
        r.Confined built h₁ (answer, h₁.setNamesLeft dir d names)
          (answer, h₂.setNamesLeft dir d names) := by
      intro answer names
      rw [HostSystem.setNamesLeft, HostSystem.setNamesLeft, ← ha.directories]
      exact ⟨rfl, ha.withDirectories (ha.within.directories.set dir hin), .of_eq rfl rfl⟩
    dsimp only
    rw [← ha.namesLeft hin, ← ha.stands hin]
    cases h₁.namesLeft d with
    | nil => exact hset _ _
    | cons name rest =>
      have hname := Inside.append hin [name]
      dsimp only
      rw [← ha.inside hname]
      cases h₁.stands d with
      | false => exact hset _ _
      | true =>
        cases hnode : h₁.node? (d.location ++ [name]) with
        | none => exact hset _ _
        | some node =>
          simp only [if_true, ha.entry hname hnode]
          exact hset _ _

/-- Closing a directory forgets its handle only. -/
theorem closeDirectory (dir : Nat) :
    r.Confined built h₁ (h₁.closeDirectory dir) (h₂.closeDirectory dir) := by
  rw [HostSystem.closeDirectory, HostSystem.closeDirectory, ← ha.directories]
  exact ⟨rfl, ha.withDirectories (ha.within.directories.close dir), .of_eq rfl rfl⟩

/-! #### Files -/

/-- A file that belongs inside may be handed out. -/
theorem giveFile {number : Nat} (howns : r.owns number) (mode : OpenMode) :
    r.Confined built h₁ (h₁.giveFile number mode) (h₂.giveFile number mode) := by
  rw [HostSystem.giveFile, HostSystem.giveFile, ← ha.files]
  exact ⟨rfl, ha.withFiles (ha.within.files.add howns), .of_eq rfl rfl⟩

/-- A file that is created inside belongs inside. -/
theorem createAndGiveFile (hfree : h₁.node? l = none) (hin : r.Inside l) (mode : OpenMode) :
    r.Confined built h₁ ((h₁.createFile l).2.giveFile (h₁.createFile l).1 mode)
      ((h₂.createFile l).2.giveFile (h₂.createFile l).1 mode) := by
  -- The number of the new file is the next one on both hosts.
  have hnumber : (h₁.createFile l).1 = (h₂.createFile l).1 := ha.count
  have howns : r.owns (h₁.createFile l).1 := ha.within.fresh _ (Nat.le_refl _)
  have hgive : r.Confined built (h₁.createFile l).2
      ((h₁.createFile l).2.giveFile (h₁.createFile l).1 mode)
      ((h₂.createFile l).2.giveFile (h₁.createFile l).1 mode) :=
    (ha.createFile hfree).giveFile howns mode
  rw [← hnumber]
  exact ⟨hgive.answer, hgive.after, (Spares.createFile hfree hin).trans hgive.kept⟩

/-- A file is found, or created, at the place its path leads to. -/
theorem openFile (hp : r.Passes path) (hin : r.Inside (r.target path)) (mode : OpenMode) :
    r.Confined built h₁ (h₁.openFile path mode) (h₂.openFile path mode) := by
  rw [HostSystem.openFile, HostSystem.openFile, ← ha.locate hp]
  cases hl : h₁.locate path with
  | error e => split_ifs <;> exact ha.unchanged _
  | ok l =>
    obtain rfl := ha.within.target_of_locate hl
    dsimp only
    rw [← ha.inside hin]
    cases hnode : h₁.node? (r.target path) with
    | some node =>
      cases node with
      | directory number => split_ifs <;> exact ha.unchanged _
      | file number =>
        have hgive : r.Confined built h₁ (h₁.giveFile number mode) (h₂.giveFile number mode) :=
          ha.giveFile (ha.within.number _ number hin hnode) mode
        split_ifs <;> first | exact ha.unchanged _ | exact hgive
    | none =>
      split_ifs <;> first | exact ha.unchanged _ | exact ha.createAndGiveFile hnode hin mode

/-- Open files belong inside, so reading sees nothing outside. -/
theorem readFile (file length : Nat) :
    r.Confined built h₁ (h₁.readFile file length) (h₂.readFile file length) := by
  rw [HostSystem.readFile, HostSystem.readFile, ← ha.files]
  cases hf : h₁.files.get? file with
  | none => exact ha.unchanged _
  | some f =>
    have howns := ha.within.files file f hf
    dsimp only
    rw [← ha.data _ howns]
    split_ifs
    · exact ha.unchanged _
    · exact ha.unchanged _
    · exact ha.unchanged _
    · exact ⟨rfl, ha.withFiles (ha.within.files.set file howns), .of_eq rfl rfl⟩

/-- New contents of a file, and a new position of the handle. -/
theorem store (file : Nat) {f : HostFile} (howns : r.owns f.number) (position : Nat) (data : Bytes)
    (answer : Except SystemError α) :
    r.Confined built h₁
      (answer, { h₁.setData f.number data with
        files := h₁.files.set file { f with position := position } })
      (answer, { h₂.setData f.number data with
        files := h₂.files.set file { f with position := position } }) := by
  have hfiles : (h₁.files.set file { f with position := position }).All fun f => r.owns f.number :=
    ha.within.files.set file howns
  rw [← ha.files]
  exact ⟨rfl, (ha.setData f.number data).withFiles hfiles,
    (Spares.setData howns data).trans (.of_eq rfl rfl)⟩

/-- Open files belong inside, so writing changes nothing outside. -/
theorem writeFile (file : Nat) (bytes : Bytes) :
    r.Confined built h₁ (h₁.writeFile file bytes) (h₂.writeFile file bytes) := by
  rw [HostSystem.writeFile, HostSystem.writeFile, ← ha.files]
  cases hf : h₁.files.get? file with
  | none => exact ha.unchanged _
  | some f =>
    have howns := ha.within.files file f hf
    dsimp only
    rw [← ha.data _ howns]
    split
    · exact ha.unchanged _
    · split
      · exact ha.unchanged _
      · split
        · exact ha.unchanged _
        · exact ha.store file howns _ _ _

/-- A seek moves a position only. -/
theorem seekFile (file offset : Nat) :
    r.Confined built h₁ (h₁.seekFile file offset) (h₂.seekFile file offset) := by
  rw [HostSystem.seekFile, HostSystem.seekFile, ← ha.files]
  cases hf : h₁.files.get? file with
  | none => exact ha.unchanged _
  | some f =>
    have howns := ha.within.files file f hf
    dsimp only
    split
    · exact ha.unchanged _
    · exact ⟨rfl, ha.withFiles (ha.within.files.set file howns), .of_eq rfl rfl⟩

/-- Open files belong inside, so cutting one changes nothing outside. -/
theorem truncateFile (file length : Nat) :
    r.Confined built h₁ (h₁.truncateFile file length) (h₂.truncateFile file length) := by
  rw [HostSystem.truncateFile, HostSystem.truncateFile, ← ha.files]
  cases hf : h₁.files.get? file with
  | none => exact ha.unchanged _
  | some f =>
    have howns := ha.within.files file f hf
    dsimp only
    rw [← ha.data _ howns]
    split_ifs
    · exact ha.unchanged _
    · exact ha.unchanged _
    · exact ⟨rfl, ha.setData _ _, .setData howns _⟩

/-- Closing a file forgets its handle only. -/
theorem closeFile (file : Nat) :
    r.Confined built h₁ (h₁.closeFile file) (h₂.closeFile file) := by
  rw [HostSystem.closeFile, HostSystem.closeFile, ← ha.files]
  exact ⟨rfl, ha.withFiles (ha.within.files.close file), .of_eq rfl rfl⟩

end Alike

end Realm
end FlashVolume

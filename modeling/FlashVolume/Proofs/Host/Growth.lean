import FlashVolume.Proofs.Host.Boundary
/-!
# What a mount leaves of the host

Mounting a volume creates the directories that are missing on the way to its root, and it can fail
behind the first of them. Whatever it answers, the host has *grown*: there are directories that were
not there before, where the way to the root leads, and nothing else is different (`Grows`). A volume
that is not mounted refuses what is asked of it, so failed mounts are all that its host ever sees.
-/

namespace FlashVolume

namespace Realm

variable {r : Realm} {h h' h'' : HostSystem} {path : HostPath} {l : List String}

/-- The second host is the first one, with directories in addition on the way to the root. -/
structure Grows (r : Realm) (h h' : HostSystem) : Prop where
  node : ∀ l, h'.node? l = h.node? l ∨
    r.OnWay l ∧ h.node? l = none ∧ ∃ number, h'.node? l = some (.directory number)
  contents : h'.contents = h.contents
  workingDirectory : h'.workingDirectory = h.workingDirectory
  files : h'.files = h.files
  directories : h'.directories = h.directories

namespace Grows

/-- A system that stays as it was has grown by nothing. -/
theorem refl (h : HostSystem) : r.Grows h h :=
  ⟨fun _ => .inl rfl, rfl, rfl, rfl, rfl⟩

/-- Growing twice is growing. -/
theorem trans (hg : r.Grows h h') (hg' : r.Grows h' h'') : r.Grows h h'' where
  node l := by
    rcases hg'.node l with hsame | ⟨hway, hfree, number, hnew⟩
    · rw [hsame]
      exact hg.node l
    · refine .inr ⟨hway, ?_, number, hnew⟩
      rcases hg.node l with hsame | ⟨-, hfree', -⟩
      · rwa [← hsame]
      · exact hfree'
  contents := hg'.contents.trans hg.contents
  workingDirectory := hg'.workingDirectory.trans hg.workingDirectory
  files := hg'.files.trans hg.files
  directories := hg'.directories.trans hg.directories

/-- Only the root and the working directory count. -/
theorem congr {r' : Realm} (hg : r.Grows h h') (hroot : r.root = r'.root)
    (hw : r.workingDirectory = r'.workingDirectory) : r'.Grows h h' := by
  refine ⟨fun l => ?_, hg.contents, hg.workingDirectory, hg.files, hg.directories⟩
  have hway : r.OnWay l ↔ r'.OnWay l := by simp only [OnWay, start, hroot, hw]
  rw [← hway]
  exact hg.node l

/-- A directory on the way to the root directory is growth. -/
theorem build (hfree : h.node? l = none) (hway : r.OnWay l) : r.Grows h (h.build l) := by
  refine ⟨fun l' => ?_, rfl, rfl, rfl, rfl⟩
  rw [HostSystem.node?_build (HostSystem.ne_nil_of_free hfree)]
  by_cases hsame : l' = l
  · subst hsame
    exact .inr ⟨hway, hfree, h.nextDirectory, if_pos rfl⟩
  · exact .inl (if_neg hsame)

end Grows

/-- The path leads along the way to the root. -/
def Approaches (r : Realm) (path : HostPath) : Prop :=
  ∀ before, before <+: path.parts → r.OnWay (HostPath.lead (r.start path) before)

/-- The root directory approaches itself. -/
theorem approaches_root (r : Realm) : r.Approaches r.root :=
  fun before hbefore => ⟨before, hbefore, rfl⟩

/-- What approaches the root directory does so from above too. -/
theorem Approaches.parent {above : HostPath} (hp : r.Approaches path)
    (h : path.parent? = some above) : r.Approaches above :=
  fun _ hbefore => leads_parent hp h hbefore

/-- What could not be created and may be there is not looked at any further. -/
theorem orStands_snd (path : HostPath) (x : HostSystem.Answer Unit) :
    (HostSystem.orStands path x).2 = x.2 := by
  obtain ⟨e | _, h⟩ := x
  · rw [HostSystem.orStands]
    split <;> rfl
  · rfl

section Creating

variable (hp : r.Approaches path) (hw : h.workingDirectory = r.workingDirectory)
include hp hw

/-- Making a directory on the way either builds it or does nothing. -/
theorem grows_createDirectory : r.Grows h (h.createDirectory path).2 := by
  rw [HostSystem.createDirectory]
  cases hl : h.locate path with
  | error e => exact .refl h
  | ok l =>
    obtain rfl := target_of_locate hw hl
    dsimp only
    cases hnode : h.node? (r.target path) with
    | some node => exact .refl h
    | none => exact .build hnode (hp _ (List.prefix_refl _))

/-- **Creating the directories of a path that leads to the root lets the host grow.** -/
theorem grows_createDirectories : r.Grows h (h.createDirectories path).2 := by
  -- By induction on the number of parts, which the parent has less of.
  induction hn : path.parts.length using Nat.strong_induction_on generalizing path h with
  | _ n ih =>
    cases hempty : path.isEmpty with
    | true =>
      rw [HostSystem.createDirectories_isEmpty hempty]
      exact .refl h
    | false =>
      have hfirst := grows_createDirectory hp hw
      by_cases hmissing : ∃ e, (h.createDirectory path).1 = .error e ∧ e.kind = .notFound
      · obtain ⟨e, he, hkind⟩ := hmissing
        rw [HostSystem.createDirectories_missing hempty (Prod.ext he rfl) hkind,
          HostSystem.createBelow]
        refine hfirst.trans ?_
        have hw' := hfirst.workingDirectory.trans hw
        cases hparent : path.parent? with
        | none => exact .refl _
        | some parent =>
          have habove : r.Grows (h.createDirectory path).2
              ((h.createDirectory path).2.createDirectories parent).2 :=
            ih parent.parts.length (hn ▸ HostPath.parent?_length_lt hparent) (hp.parent hparent)
              hw' rfl
          dsimp only
          generalize (h.createDirectory path).2.createDirectories parent = x at habove ⊢
          obtain ⟨e | _, h'⟩ := x
          · exact habove
          · dsimp only
            rw [orStands_snd]
            exact habove.trans
              (grows_createDirectory hp (habove.workingDirectory.trans hw'))
      · have hsettled : ∀ e, (h.createDirectory path).1 = .error e → e.kind ≠ .notFound :=
          fun e he hkind => hmissing ⟨e, he, hkind⟩
        rw [HostSystem.createDirectories_settled hempty hsettled, orStands_snd]
        exact hfirst

end Creating

end Realm
end FlashVolume

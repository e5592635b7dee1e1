/-!
# Places in a text

A reader answers what it has read with what follows. It reads on from where it stands: what follows
is a place behind the one it was given, or that place itself. Of a list of characters these are its
ends.

`Leaves` states that of one reading. It goes along with the way readers are put together, so that a
reader has it if its parts have.
-/

namespace FlashVolume

/-- What has places, each behind itself and behind what is in front of it. -/
class Place (σ : Type) where
  /-- Whether the second place is the first or behind it. -/
  IsBehind : σ → σ → Prop
  refl (s : σ) : IsBehind s s
  trans {s t u : σ} : IsBehind s t → IsBehind t u → IsBehind s u

/-- The places of a list are its ends. -/
instance {τ : Type} : Place (List τ) where
  IsBehind s t := t <:+ s
  refl := List.suffix_refl
  trans hst htu := htu.trans hst

/-- What is left of a place that has been read, if it could be, is behind that place. -/
def Leaves {σ α : Type} [Place σ] (left : α → σ) (s : σ) (read : Option α) : Prop :=
  ∀ a, read = some a → Place.IsBehind s (left a)

section

variable {σ α β γ : Type} [Place σ] {left : α → σ} {right : β → σ} {s t : σ}

/-- What reads nothing leaves nothing. -/
theorem leaves_none : Leaves left s none := by
  intro a h
  cases h

/-- What stands behind is left. -/
theorem leaves_some {a : α} (h : Place.IsBehind s (left a)) : Leaves left s (some a) := by
  rintro _ ⟨⟩
  exact h

/-- What starts behind a place ends behind it. -/
theorem Leaves.behind {read : Option α} (h : Leaves left t read) (hst : Place.IsBehind s t) :
    Leaves left s read :=
  fun a ha => Place.trans hst (h a ha)

/-- **One reading after another.** -/
theorem Leaves.bind {read : Option α} {next : α → Option β} (h : Leaves left s read)
    (hnext : ∀ a, Leaves right (left a) (next a)) : Leaves right s (read.bind next) := by
  intro b hb
  obtain ⟨a, ha, hb⟩ := Option.bind_eq_some_iff.1 hb
  exact Place.trans (h a ha) (hnext a b hb)

/-- What is looked up on the way takes nothing away. -/
theorem leaves_bind {found : Option γ} {next : γ → Option β}
    (hnext : ∀ c, Leaves right s (next c)) : Leaves right s (found.bind next) := by
  intro b hb
  obtain ⟨c, _, hb⟩ := Option.bind_eq_some_iff.1 hb
  exact hnext c b hb

/-- A reading whose result is put another way. -/
theorem Leaves.map {read : Option α} {f : α → β} (h : Leaves left s read)
    (hf : ∀ a, right (f a) = left a) : Leaves right s (read.map f) := by
  intro b hb
  obtain ⟨a, ha, rfl⟩ := Option.map_eq_some_iff.1 hb
  exact (hf a).symm ▸ h a ha

/-- A reading that not every result comes through. -/
theorem Leaves.filter {read : Option α} {keep : α → Bool} (h : Leaves left s read) :
    Leaves left s (read.filter keep) :=
  fun a ha => h a (Option.filter_eq_some_iff.1 ha).1

/-- What is read may be turned into something else. -/
theorem leaves_map {found : Option γ} {f : γ → β} (hf : ∀ c, Place.IsBehind s (right (f c))) :
    Leaves right s (found.map f) := by
  intro b hb
  obtain ⟨c, _, rfl⟩ := Option.map_eq_some_iff.1 hb
  exact hf c

/-- Either way leaves what stands behind. -/
theorem Leaves.ite {p : Prop} [Decidable p] {yes no : Option α} (hyes : Leaves left s yes)
    (hno : Leaves left s no) : Leaves left s (if p then yes else no) := by
  split
  · exact hyes
  · exact hno

end

/-- What is left of a list is no longer than the list. -/
theorem Leaves.length_le {τ α : Type} {left : α → List τ} {s : List τ} {read : Option α} {a : α}
    (h : Leaves left s read) (ha : read = some a) : (left a).length ≤ s.length :=
  (h a ha).length_le

end FlashVolume

import FlashVolume.Proofs.Storage.Footprint
import FlashVolume.Proofs.Storage.Listing
/-!
# Two runs abreast

A program runs from two states that are alike. If every call that it can make answers the same in
both and leaves them alike, the program cannot tell them apart: it answers the same, and the states
after it are alike. What each call keeps of the state before it, the program keeps as well.
-/

universe u

namespace FlashVolume

/-- Two answers are the same, the states after them are alike, and the first one keeps what is to be
kept of the state before it. -/
structure Abreast {σ : Type u} {β : Type} (alike keeps : σ → σ → Prop) (s : σ)
    (x y : β × σ) : Prop where
  answer : x.1 = y.1
  after : alike x.2 y.2
  kept : keeps s x.2

namespace Abreast

variable {σ : Type u} {β γ : Type} {alike keeps : σ → σ → Prop} {s : σ} {x y : β × σ}
  {x' y' : γ × σ}

/-- What comes next is made from the states that are left. -/
theorem trans (htrans : ∀ s₁ s₂ s₃, keeps s₁ s₂ → keeps s₂ s₃ → keeps s₁ s₃)
    (h : Abreast alike keeps s x y) (h' : Abreast alike keeps x.2 x' y') :
    Abreast alike keeps s x' y' :=
  ⟨h'.answer, h'.after, htrans _ _ _ h.kept h'.kept⟩

/-- What is made of equal answers is equal. -/
theorem map (h : Abreast alike keeps s x y) (f : β → γ) :
    Abreast alike keeps s (f x.1, x.2) (f y.1, y.2) :=
  ⟨congrArg f h.answer, h.after, h.kept⟩

end Abreast

namespace Program

variable {σ : Type u} {α : Type} {allowed : {γ : Type} → Call γ → Prop} {B : Backend σ}
  {alike keeps : σ → σ → Prop} (hrefl : ∀ s, keeps s s)
  (htrans : ∀ s₁ s₂ s₃, keeps s₁ s₂ → keeps s₂ s₃ → keeps s₁ s₃)
include htrans

/-- Two scans read the same entries. -/
theorem scan_abreast {dir : DirHandle}
    (hcall : ∀ s₁ s₂, alike s₁ s₂ →
      Abreast alike keeps s₁ (B.answer (.readdir dir) s₁) (B.answer (.readdir dir) s₂))
    {γ : Type} (visit : γ → Entry → ForInStep γ) (acc : γ) {s₁ s₂ : σ} (hs : alike s₁ s₂) :
    Abreast alike keeps s₁ (B.scan dir visit acc s₁) (B.scan dir visit acc s₂) := by
  -- The second scan reads what the first one reads.
  have hread : ∀ {s₁ s₂ s₁' : σ} {answer : Except StorageError Entry}, alike s₁ s₂ →
      B.answer (.readdir dir) s₁ = (answer, s₁') →
      ∃ s₂', B.answer (.readdir dir) s₂ = (answer, s₂') ∧ alike s₁' s₂' ∧ keeps s₁ s₁' := by
    intro s₁ s₂ s₁' answer hs heq
    obtain ⟨hanswer, hafter, hkept⟩ := hcall s₁ s₂ hs
    rw [heq] at hanswer hafter hkept
    exact ⟨(B.answer (.readdir dir) s₂).2, Prod.ext hanswer.symm rfl, hafter, hkept⟩
  fun_induction Backend.scan B dir visit acc s₁ generalizing s₂ with
  | case1 acc s₁ e s₁' hfirst =>
    obtain ⟨s₂', hsecond, hafter, hkept⟩ := hread hs hfirst
    rw [Backend.scan_eq, hsecond]
    exact ⟨rfl, hafter, hkept⟩
  | case2 acc s₁ entry s₁' hfirst hend =>
    obtain ⟨s₂', hsecond, hafter, hkept⟩ := hread hs hfirst
    rw [Backend.scan_eq, hsecond]
    simp only [hend, if_true]
    exact ⟨rfl, hafter, hkept⟩
  | case3 acc s₁ entry s₁' hfirst hend acc' hvisit =>
    obtain ⟨s₂', hsecond, hafter, hkept⟩ := hread hs hfirst
    rw [Backend.scan_eq, hsecond]
    simp only [hend, hvisit]
    exact ⟨rfl, hafter, hkept⟩
  | case4 acc s₁ entry s₁' hfirst hend acc' hvisit ih =>
    obtain ⟨s₂', hsecond, hafter, hkept⟩ := hread hs hfirst
    have hrest := ih hafter
    rw [Backend.scan_eq B dir visit acc s₂, hsecond]
    simp only [hend, hvisit]
    exact ⟨hrest.answer, hrest.after, htrans _ _ _ hkept hrest.kept⟩

include hrefl in
/-- **What no call tells apart, no program does.** -/
theorem Only.run_abreast
    (hcall : ∀ {γ : Type} (c : Call γ) s₁ s₂, allowed c → alike s₁ s₂ →
      Abreast alike keeps s₁ (B.answer c s₁) (B.answer c s₂))
    {p : Program α} (hp : p.Only allowed) {s₁ s₂ : σ} (hs : alike s₁ s₂) :
    Abreast alike keeps s₁ (p.run B s₁) (p.run B s₂) := by
  induction p generalizing s₁ s₂ with
  | ret a => exact ⟨rfl, hs, hrefl s₁⟩
  | call c next ih =>
    have hfirst := hcall c s₁ s₂ hp.1 hs
    have hrest := ih (B.answer c s₁).1 (hp.2 _) hfirst.after
    change Abreast alike keeps s₁ ((next (B.answer c s₁).1).run B (B.answer c s₁).2)
      ((next (B.answer c s₂).1).run B (B.answer c s₂).2)
    rw [← hfirst.answer]
    exact hfirst.trans htrans hrest
  | scan dir visit start next ih =>
    have hfirst := scan_abreast htrans (fun s₁ s₂ => hcall (.readdir dir) s₁ s₂ hp.1) visit start hs
    have hrest := ih _ _ (hp.2 (B.scan dir visit start s₁).1.1 (B.scan dir visit start s₁).1.2)
      hfirst.after
    change Abreast alike keeps s₁
      ((next (B.scan dir visit start s₁).1.1 (B.scan dir visit start s₁).1.2).run B _)
      ((next (B.scan dir visit start s₂).1.1 (B.scan dir visit start s₂).1.2).run B _)
    rw [← hfirst.answer]
    exact hfirst.trans htrans hrest

end Program
end FlashVolume

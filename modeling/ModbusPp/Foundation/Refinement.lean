import ModbusPp.Foundation.Run

/-! Refinement between two machines. `lower` is the command of the abstract machine that
a concrete one stands for, if any. If every concrete step is such an abstract one between
related states and shows the same, and every other step leaves the abstract state as it
is and shows nothing, then every concrete run is a run of the abstract machine. `allowed`
says which commands a run may have. -/

namespace ModbusPp.Foundation

variable {ε ι κ σ ρ ω υ α : Type} {step : ι → σ → Except ε (ω × σ)}
  {abstract : κ → ρ → Except ε (υ × ρ)}
  {lower : ι → Option κ} {allowed : ι → Prop} {Rel : σ → ρ → Prop}
    {show₁ : ω → List α} {show₂ : υ → List α}

structure Refines (step : ι → σ → Except ε (ω × σ)) (abstract : κ → ρ → Except ε (υ × ρ))
    (lower : ι → Option κ) (allowed : ι → Prop) (Rel : σ → ρ → Prop)
    (show₁ : ω → List α) (show₂ : υ → List α) : Prop where
  stutters : ∀ i s o s' t, lower i = none → allowed i → Rel s t →
    step i s = .ok (o, s') → Rel s' t ∧ show₁ o = []
  lowers : ∀ i k s o s' t, lower i = some k → allowed i → Rel s t → step i s = .ok (o, s') →
    ∃ p t', abstract k t = .ok (p, t') ∧ Rel s' t' ∧ show₁ o = show₂ p

theorem Refines.run (h : Refines step abstract lower allowed Rel show₁ show₂)
    (is : List ι) {s s' : σ} {os : List ω} {t : ρ} (hall : ∀ i ∈ is, allowed i)
    (hrel : Rel s t) (hrun : runAll step is s = .ok (os, s')) :
    ∃ ps t', runAll abstract (is.filterMap lower) t = .ok (ps, t') ∧ Rel s' t' ∧
      os.flatMap show₁ = ps.flatMap show₂ := by
  induction is generalizing s os t with
  | nil =>
    cases hrun
    exact ⟨[], t, rfl, hrel, rfl⟩
  | cons i is ih =>
    obtain ⟨o, s₁, os', hfirst, hothers, rfl⟩ := runAll_cons.mp hrun
    obtain ⟨hallowed, hall⟩ := List.forall_mem_cons.mp hall
    cases hi : lower i with
    | none =>
      obtain ⟨hrel₁, hshow⟩ := h.stutters i s o s₁ t hi hallowed hrel hfirst
      obtain ⟨ps, t', hps, hrel', heq⟩ := ih hall hrel₁ hothers
      rw [List.filterMap_cons_none hi]
      exact ⟨ps, t', hps, hrel', by rw [List.flatMap_cons, hshow, heq]; rfl⟩
    | some k =>
      obtain ⟨p, t₁, hone, hrel₁, hshow⟩ := h.lowers i k s o s₁ t hi hallowed hrel hfirst
      obtain ⟨ps, t', hps, hrel', heq⟩ := ih hall hrel₁ hothers
      rw [List.filterMap_cons_some hi]
      exact ⟨p :: ps, t', runAll_cons.mpr ⟨p, t₁, ps, hone, hps, rfl⟩, hrel',
        by rw [List.flatMap_cons, List.flatMap_cons, hshow, heq]⟩

end ModbusPp.Foundation

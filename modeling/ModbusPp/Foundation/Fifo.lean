import ModbusPp.Foundation.Run

/-! Runs over a first-in first-out buffer. If every step takes something off the
front of the buffer and puts something at its back, then in a whole run what came
out, followed by what is left, is what was there, followed by what went in. -/

namespace ModbusPp.Foundation

variable {ε ι σ ω α : Type} {step : ι → σ → Except ε (ω × σ)} (Holds : σ → List α → Prop)

/-- `Holds s q` says that the buffer of `s` holds `q`, and `Regular` which outputs the
run may have. -/
theorem runAll_fifo (Regular : ω → Prop) (out inn : ω → List α)
    (hstep : ∀ i s o s' q, Holds s q → step i s = .ok (o, s') → Regular o → ∃ q', Holds s' q' ∧
      out o ++ q' = q ++ inn o)
    (is : List ι) {s s' : σ} {os : List ω} {q : List α} (hq : Holds s q)
    (hrun : runAll step is s = .ok (os, s')) (hregular : ∀ o ∈ os, Regular o) :
    ∃ q', Holds s' q' ∧ os.flatMap out ++ q' = q ++ os.flatMap inn := by
  induction is generalizing s os q with
  | nil =>
    cases hrun
    exact ⟨q, hq, by simp⟩
  | cons i is ih =>
    obtain ⟨o, s₁, os', hfirst, hothers, rfl⟩ := runAll_cons.mp hrun
    obtain ⟨q₁, hq₁, hone⟩ := hstep i s o s₁ q hq hfirst (hregular o List.mem_cons_self)
    obtain ⟨q', hq', hrest⟩ := ih hq₁ hothers fun o' ho' => hregular o' (List.mem_cons_of_mem o ho')
    refine ⟨q', hq', ?_⟩
    calc (o :: os').flatMap out ++ q' = out o ++ (os'.flatMap out ++ q') := by
          rw [List.flatMap_cons, List.append_assoc]
      _ = out o ++ q₁ ++ os'.flatMap inn := by rw [hrest, List.append_assoc]
      _ = q ++ (o :: os').flatMap inn := by rw [hone, List.flatMap_cons, List.append_assoc]

/-- Where nothing is taken, the run appends everything that its steps append. -/
theorem runAll_appends (inn : ω → List α) (is : List ι)
    (hstep : ∀ i ∈ is, ∀ s o s' q, Holds s q → step i s = .ok (o, s') → Holds s' (q ++ inn o))
    {s s' : σ} {os : List ω} {q : List α} (hq : Holds s q)
    (hrun : runAll step is s = .ok (os, s')) :
    Holds s' (q ++ os.flatMap inn) := by
  induction is generalizing s os q with
  | nil =>
    cases hrun
    simpa using hq
  | cons i is ih =>
    obtain ⟨o, s₁, os', hfirst, hothers, rfl⟩ := runAll_cons.mp hrun
    have hrest := ih (fun j hj => hstep j (List.mem_cons_of_mem i hj))
      (hstep i List.mem_cons_self s o s₁ q hq hfirst) hothers
    rwa [List.append_assoc, ← List.flatMap_cons] at hrest

/-- The same for a run under a guard. -/
theorem runAll_appends_guarded {guard : ι → σ → Prop} (inn : ω → List α)
    (hstep : ∀ i s o s' q, Holds s q → guard i s → step i s = .ok (o, s') → Holds s' (q ++ inn o))
    (is : List ι) {s s' : σ} {os : List ω} {q : List α} (hq : Holds s q)
    (hguard : Guarded step guard is s) (hrun : runAll step is s = .ok (os, s')) :
    Holds s' (q ++ os.flatMap inn) := by
  induction is generalizing s os q with
  | nil =>
    cases hrun
    simpa using hq
  | cons i is ih =>
    obtain ⟨o, s₁, os', hfirst, hothers, rfl⟩ := runAll_cons.mp hrun
    have hrest := ih (hstep i s o s₁ q hq hguard.1 hfirst) (hguard.2 o s₁ hfirst) hothers
    rwa [List.append_assoc, ← List.flatMap_cons] at hrest

end ModbusPp.Foundation

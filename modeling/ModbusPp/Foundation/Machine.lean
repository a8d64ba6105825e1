import Mathlib.Data.List.Forall2

/-! Machines that never fail. Feeding a machine a list of commands gives an output for
each and a last state; what one machine does is related to what another does by a
relation on their states that every step keeps. -/

namespace ModbusPp.Foundation

variable {ι σ τ ω ο : Type}

/-- The outputs of the commands, in order, and the state after the last one. -/
def feed (step : ι → σ → ω × σ) : List ι → σ → List ω × σ
  | [], s => ([], s)
  | i :: is, s =>
    let rest := feed step is (step i s).2
    ((step i s).1 :: rest.1, rest.2)

section feed

variable {step : ι → σ → ω × σ} {is js : List ι} {s : σ}

/-- An output is that of its own command, in the state that those before it leave. -/
theorem feed_getElem? (step : ι → σ → ω × σ) (is : List ι) (s : σ) (k : ℕ) :
    (feed step is s).1[k]? = is[k]?.map fun i => (step i (feed step (is.take k) s).2).1 := by
  induction is generalizing s k with
  | nil => rfl
  | cons i is ih =>
    cases k with
    | zero => rfl
    | succ k => exact ih _ k

/-- A machine whose steps follow those of another follows its runs. -/
theorem feed_follows {spec : ι → τ → ο × τ} (R : σ → τ → Prop) (out : ω → ο → Prop)
    (hstep : ∀ i ∈ is, ∀ s t, R s t → R (step i s).2 (spec i t).2 ∧ out (step i s).1 (spec i t).1)
    {t : τ} (h : R s t) :
    R (feed step is s).2 (feed spec is t).2 ∧
    List.Forall₂ out (feed step is s).1 (feed spec is t).1 := by
  induction is generalizing s t with
  | nil => exact ⟨h, .nil⟩
  | cons i is ih =>
    obtain ⟨hfirst, hrest⟩ := List.forall_mem_cons.mp hstep
    obtain ⟨hR, hout⟩ := hfirst s t h
    obtain ⟨hR', houts⟩ := ih hrest hR
    exact ⟨hR', .cons hout houts⟩

end feed

end ModbusPp.Foundation

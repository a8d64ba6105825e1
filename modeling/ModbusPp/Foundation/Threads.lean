import Mathlib.Logic.Function.Basic
import ModbusPp.Foundation.Run

/-! Threads over a shared state. Every thread has a control state, and a turn lets one
of them take its next atomic step; a run is a list of turns, so the runs are all the
interleavings. A proof outline annotates the shared state, each control state, and each
pair of them; it holds throughout a run if every step keeps its own annotations and does
not disturb those of the other threads. -/

namespace ModbusPp.Foundation

variable {ε ι κ μ σ : Type}

structure Threads (ι κ σ : Type) where
  control : ι → κ
  shared : σ

namespace Threads

variable [DecidableEq ι]

/-- The turn of one thread; `μ` is what its surroundings contribute. -/
def act (step : μ → κ → σ → Except ε (κ × σ)) (turn : ι × μ) (s : Threads ι κ σ) :
    Except ε (Unit × Threads ι κ σ) :=
  match step turn.2 (s.control turn.1) s.shared with
  | .error e => .error e
  | .ok (k, shared) => .ok ((), ⟨Function.update s.control turn.1 k, shared⟩)

theorem act_eq_ok {step : μ → κ → σ → Except ε (κ × σ)} {t : ι} {m : μ} {s s' : Threads ι κ σ}
    (h : act step (t, m) s = .ok ((), s')) :
    ∃ k, step m (s.control t) s.shared = .ok (k, s'.shared) ∧
      s'.control = Function.update s.control t k := by
  unfold act at h
  cases hstep : step m (s.control t) s.shared with
  | error e =>
    rw [hstep] at h
    cases h
  | ok next =>
    rw [hstep] at h
    cases h
    exact ⟨next.1, rfl, rfl⟩

/-- What every step keeps of the shared state, wherever its thread is, every run keeps. -/
theorem runAll_shared {step : μ → κ → σ → Except ε (κ × σ)} (inv : σ → Prop)
    (hstep : ∀ m k s k' s', inv s → step m k s = .ok (k', s') → inv s')
    (turns : List (ι × μ)) {os : List Unit} {s s' : Threads ι κ σ}
    (hinv : inv s.shared) (hrun : runAll (act step) turns s = .ok (os, s')) : inv s'.shared := by
  refine (runAll_keeps (fun s => inv s.shared) (fun _ => True) ?_ turns hinv hrun).1
  rintro ⟨t, m⟩ s ⟨⟩ s' hinv h
  obtain ⟨k, hone, -⟩ := act_eq_ok h
  exact ⟨hstep m _ _ k _ hinv hone, trivial⟩

/-- The steps of a thread that no other thread interrupts. -/
def alone (step : μ → κ → σ → Except ε (κ × σ)) : List μ → κ × σ → Except ε (κ × σ)
  | [], c => .ok c
  | m :: ms, c => match step m c.1 c.2 with
    | .error e => .error e
    | .ok c => alone step ms c

theorem alone_cons {step : μ → κ → σ → Except ε (κ × σ)} {m : μ} {ms : List μ}
    {k k₁ : κ} {s s₁ : σ} {c : κ × σ} (hstep : step m k s = .ok (k₁, s₁))
    (hrest : alone step ms (k₁, s₁) = .ok c) :
    alone step (m :: ms) (k, s) = .ok c := by
  rw [alone, hstep]
  exact hrest

end Threads

structure Outline (κ σ : Type) where
  shared : σ → Prop
  own : κ → σ → Prop
  pair : κ → κ → Prop

namespace Outline

/-- The annotations hold. -/
structure Holds (P : Outline κ σ) (s : Threads ι κ σ) : Prop where
  shared : P.shared s.shared
  own : ∀ t, P.own (s.control t) s.shared
  pair : ∀ t t', t ≠ t' → P.pair (s.control t) (s.control t')

/-- Every step keeps the annotations, as far as it is admitted beside the other threads. -/
structure Stable (P : Outline κ σ) (step : μ → κ → σ → Except ε (κ × σ))
    (admits : μ → κ → κ → Prop) : Prop where
  advances : ∀ {m k s k' s'}, P.shared s → P.own k s → step m k s = .ok (k', s') →
    P.shared s' ∧ P.own k' s'
  undisturbed : ∀ {m k s k' s' k₂}, P.shared s → P.own k s → P.own k₂ s →
    P.pair k k₂ → P.pair k₂ k →
    admits m k k₂ → step m k s = .ok (k', s') → P.own k₂ s' ∧ P.pair k' k₂ ∧ P.pair k₂ k'

/-- The turn is admitted beside every other thread. -/
def Admitted (admits : μ → κ → κ → Prop) (turn : ι × μ) (s : Threads ι κ σ) : Prop :=
  ∀ t', t' ≠ turn.1 → admits turn.2 (s.control turn.1) (s.control t')

variable [DecidableEq ι] {P : Outline κ σ} {step : μ → κ → σ → Except ε (κ × σ)}
  {admits : μ → κ → κ → Prop}
  {s s' : Threads ι κ σ}

theorem Stable.act (hstable : P.Stable step admits) {turn : ι × μ} (hinv : P.Holds s)
    (hadmitted : Admitted admits turn s) (h : Threads.act step turn s = .ok ((), s')) :
    P.Holds s' := by
  obtain ⟨t, m⟩ := turn
  obtain ⟨k, hstep, hcontrol⟩ := Threads.act_eq_ok h
  obtain ⟨hshared, hown⟩ := hstable.advances hinv.shared (hinv.own t) hstep
  have hothers (t₂ : ι) (hne : t₂ ≠ t) :
      P.own (s.control t₂) s'.shared ∧ P.pair k (s.control t₂) ∧ P.pair (s.control t₂) k :=
    hstable.undisturbed hinv.shared (hinv.own t) (hinv.own t₂) (hinv.pair t t₂ hne.symm)
      (hinv.pair t₂ t hne)
      (hadmitted t₂ hne) hstep
  refine ⟨hshared, fun t₂ => ?_, fun t₁ t₂ hne => ?_⟩
  · rw [hcontrol]
    by_cases ht : t₂ = t
    · subst ht
      rwa [Function.update_self]
    · rw [Function.update_of_ne ht]
      exact (hothers t₂ ht).1
  · rw [hcontrol]
    by_cases h₁ : t₁ = t
    · subst h₁
      rw [Function.update_self, Function.update_of_ne hne.symm]
      exact (hothers t₂ hne.symm).2.1
    · by_cases h₂ : t₂ = t
      · subst h₂
        rw [Function.update_self, Function.update_of_ne hne]
        exact (hothers t₁ hne).2.2
      · rw [Function.update_of_ne h₁, Function.update_of_ne h₂]
        exact hinv.pair t₁ t₂ hne

/-- A stable outline holds at the end of every run of admitted turns. -/
theorem Stable.runAll (hstable : P.Stable step admits) (turns : List (ι × μ))
    {os : List Unit} (hinv : P.Holds s)
    (hadmitted : Guarded (Threads.act step) (Admitted admits) turns s)
    (hrun : runAll (Threads.act step) turns s = .ok (os, s')) : P.Holds s' :=
  (runAll_keeps_guarded P.Holds (fun _ => True)
    (fun _ _ _ _ hinv hadmitted h => ⟨hstable.act hinv hadmitted h, trivial⟩)
      turns hinv hadmitted hrun).1

end Outline

end ModbusPp.Foundation

import Mathlib.Logic.Function.Iterate
import Mathlib.Order.Lattice.Nat
import Mathlib.Tactic

/-! Loops that test at the end of each turn, and need not end. Followed for so many turns,
such a loop returns if and only if one of these turns is the last. -/

namespace ModbusPp.Foundation

variable {σ : Type*}

/-- `do s = next(s); while (again(s));`, for so many turns at most. -/
def doWhile (next : σ → σ) (again : σ → Bool) : ℕ → σ → Option σ
  | 0, _ => none
  | turns + 1, s => if again (next s) then doWhile next again turns (next s) else some (next s)

variable {next : σ → σ} {again : σ → Bool} {turns : ℕ} {s s' : σ}

/-- The loop returns the state after its last turn, which is the first that fails the test. -/
theorem doWhile_eq_some_iff : doWhile next again turns s = some s' ↔
    ∃ k < turns, s' = next^[k + 1] s ∧ again s' = false ∧
      ∀ i < k, again (next^[i + 1] s) = true := by
  induction turns generalizing s with
  | zero => exact ⟨nofun, fun ⟨_, hk, _⟩ => absurd hk (Nat.not_lt_zero _)⟩
  | succ turns ih =>
    rw [doWhile]
    by_cases hagain : again (next s) = true
    · rw [if_pos hagain, ih]
      constructor
      · rintro ⟨k, hk, hs', hlast, hbefore⟩
        refine ⟨k + 1, Nat.succ_lt_succ hk, hs', hlast, fun i hi => ?_⟩
        cases i with
        | zero => exact hagain
        | succ i => exact hbefore i (Nat.lt_of_succ_lt_succ hi)
      · rintro ⟨k, hk, hs', hlast, hbefore⟩
        cases k with
        | zero =>
          rw [hs'] at hlast
          exact absurd hagain (by rw [show next s = next^[0 + 1] s from rfl, hlast]; decide)
        | succ k => exact ⟨k, Nat.lt_of_succ_lt_succ hk, hs', hlast,
            fun i hi => hbefore (i + 1) (Nat.succ_lt_succ hi)⟩
    · rw [if_neg hagain, Option.some.injEq]
      constructor
      · rintro rfl
        exact ⟨0, Nat.succ_pos _, rfl, by simpa using hagain,
          fun i hi => absurd hi (Nat.not_lt_zero _)⟩
      · rintro ⟨k, -, hs', -, hbefore⟩
        cases k with
        | zero => exact hs'.symm
        | succ k => exact absurd (hbefore 0 (Nat.succ_pos _)) hagain

/-- Given turns enough, the loop returns exactly if some turn fails the test. -/
theorem doWhile_returns_iff : (∃ turns s', doWhile next again turns s = some s') ↔
    ∃ k, again (next^[k + 1] s) = false := by
  constructor
  · rintro ⟨turns, s', h⟩
    obtain ⟨k, -, rfl, hlast, -⟩ := doWhile_eq_some_iff.mp h
    exact ⟨k, hlast⟩
  · intro hends
    have hfirst := Nat.find_spec hends
    refine ⟨Nat.find hends + 1, _, doWhile_eq_some_iff.mpr
      ⟨Nat.find hends, Nat.lt_succ_self _, rfl, hfirst, ?_⟩⟩
    intro i hi
    simpa using Nat.find_min hends hi

end ModbusPp.Foundation

import Mathlib.Tactic
import Mathlib.Data.ZMod.Basic

/-! Bit-serial linear shift registers. The contents form a group of exponent two,
a clock applies an additive step, and an incoming one adds a fixed element before
it. The register is linear in its contents and its input together, so what it
makes of a sum of bit strings is the sum of what it makes of each. The rules at
the end say which bit strings never leave a register at zero. -/

namespace ModbusPp.Foundation

structure ShiftRegister (A : Type*) [AddCommGroup A] where
  step : A →+ A
  input : A
  add_self : ∀ a : A, a + a = 0

namespace ShiftRegister

variable {A : Type*} [AddCommGroup A] (R : ShiftRegister A) {a a' : A} {bs bs' : List Bool}

/-- One clock, with the incoming bit. -/
def clock (a : A) (b : Bool) : A := R.step (a + if b then R.input else 0)

def run (a : A) (bs : List Bool) : A := bs.foldl R.clock a

@[simp] theorem run_nil (a : A) : R.run a [] = a := rfl

@[simp] theorem run_cons (a : A) (b : Bool) (bs : List Bool) :
    R.run a (b :: bs) = R.run (R.clock a b) bs := rfl

theorem run_append (a : A) (bs bs' : List Bool) : R.run a (bs ++ bs') = R.run (R.run a bs) bs' :=
  List.foldl_append

theorem clock_xor (a a' : A) (b b' : Bool) : R.clock (a + a')
    (xor b b') = R.clock a b + R.clock a' b' := by
  have hin : (if xor b b' then R.input else 0) =
      (if b then R.input else 0) + if b' then R.input else 0 := by
    cases b <;> cases b' <;> simp [R.add_self]
  rw [clock, clock, clock, hin, add_add_add_comm, map_add]

/-- Superposition: contents and inputs add up. -/
theorem run_xor (hlen : bs.length = bs'.length) :
    R.run (a + a') (List.zipWith xor bs bs') = R.run a bs + R.run a' bs' := by
  induction bs generalizing bs' a a' with
  | nil =>
    rw [List.length_nil, eq_comm, List.length_eq_zero_iff] at hlen
    simp [hlen]
  | cons b bs ih =>
    cases bs' with
    | nil => simp at hlen
    | cons b' bs' =>
      rw [List.zipWith_cons_cons, run_cons, run_cons, run_cons, clock_xor]
      exact ih (Nat.succ.inj hlen)

theorem run_quiet (a : A) (hquiet : ∀ b ∈ bs, b = false) : R.run a bs = R.step^[bs.length] a := by
  induction bs generalizing a with
  | nil => rfl
  | cons b bs ih =>
    obtain rfl : b = false := hquiet b List.mem_cons_self
    rw [run_cons, ih _ (fun b hb => hquiet b (List.mem_cons_of_mem _ hb)), List.length_cons,
      Function.iterate_succ_apply]
    simp [clock]

/-- What is added to the contents only steps along with the input. -/
theorem run_add (a a' : A) (bs : List Bool) :
    R.run (a + a') bs = R.run a bs + R.step^[bs.length] a' := by
  induction bs generalizing a a' with
  | nil => rfl
  | cons b bs ih =>
    have hclock : R.clock (a + a') b = R.clock a b + R.step a' := by
      rw [clock, clock, add_right_comm, map_add]
    rw [run_cons, run_cons, hclock, ih, List.length_cons, Function.iterate_succ_apply]

theorem run_zero_quiet (hquiet : ∀ b ∈ bs, b = false) : R.run 0 bs = 0 := by
  rw [run_quiet R 0 hquiet, iterate_map_zero]

/-! ### Parity -/

theorem run_parity (φ : A →+ ZMod 2) (hstep : ∀ a, φ (R.step a) = φ a)
    (hinput : φ R.input = 1) (a : A) (bs : List Bool) :
    φ (R.run a bs) = φ a + (bs.count true : ℕ) := by
  induction bs generalizing a with
  | nil => simp
  | cons b bs ih =>
    rw [run_cons, ih, clock, hstep, map_add]
    cases b
    · simp
    · simp [hinput]
      ring

theorem run_ne_zero_of_odd (φ : A →+ ZMod 2) (hstep : ∀ a, φ (R.step a) = φ a)
    (hinput : φ R.input = 1) (hodd : Odd (bs.count true)) : R.run 0 bs ≠ 0 := by
  intro h0
  have hφ := R.run_parity φ hstep hinput 0 bs
  rw [h0, map_zero, zero_add, eq_comm, ZMod.natCast_eq_zero_iff_even] at hφ
  exact Nat.not_even_iff_odd.mpr hodd hφ

/-! ### Bursts -/

/-- The sum of the elements `e i` at the ones of a bit string. -/
def packed (e : ℕ → A) : List Bool → A
  | [] => 0
  | b :: bs => (if b then e 0 else 0) + packed (fun i => e (i + 1)) bs

/-- Elements that step down to the input: adding `e i` now is a one `i` clocks later. -/
structure Taps (e : ℕ → A) (n : ℕ) : Prop where
  zero : e 0 = R.input
  succ : ∀ i, i + 1 < n → R.step (e (i + 1)) = e i

variable {e : ℕ → A} {n : ℕ}

theorem step_packed {k : ℕ} (h : ∀ i, i < k + bs.length → R.step (e (i + 1)) = e i) :
    R.step (packed (fun i => e (i + k + 1)) bs) = packed (fun i => e (i + k)) bs := by
  induction bs generalizing k with
  | nil => simp [packed]
  | cons b bs ih =>
    have htail := ih (k := k + 1) (fun i hi => h i (by rw [List.length_cons]; omega))
    have hhead := h k (by rw [List.length_cons]; omega)
    simp only [packed, map_add, Nat.zero_add, Nat.add_right_comm _ 1 k]
    simp only [← Nat.add_assoc, Nat.add_right_comm _ k 1] at htail ⊢
    rw [htail]
    cases b <;> simp [hhead]

/-- A short enough bit string may be added to the contents all at once. -/
theorem run_packed (h : R.Taps e n) (hlen : bs.length ≤ n) (a : A) :
    R.run a bs = R.step^[bs.length] (a + packed e bs) := by
  induction bs generalizing a with
  | nil => simp [packed]
  | cons b bs ih =>
    rw [List.length_cons] at hlen
    have hpacked : R.step (packed (fun i => e (i + 1)) bs) = packed e bs :=
      R.step_packed (k := 0) (fun i hi => h.succ i (by omega))
    rw [run_cons, ih (by omega), List.length_cons, Function.iterate_succ_apply, clock,
      packed, ← add_assoc, R.step.map_add (a + _), hpacked, h.zero]

/-- Ones confined to a window as long as there are independent taps. -/
theorem run_burst (hinj : Function.Injective R.step) (h : R.Taps e n)
    (hind : ∀ w : List Bool, w.length ≤ n → packed e w = 0 → true ∉ w) (hset : true ∈ bs) {p : ℕ}
    (hwindow : ∀ k, bs[k]? = some true → p ≤ k ∧ k < p + n) : R.run 0 bs ≠ 0 := by
  have hbefore : ∀ b ∈ bs.take p, b = false := by
    intro b hb
    obtain ⟨k, hk, rfl⟩ := List.mem_iff_getElem.mp hb
    by_contra hne
    rw [List.getElem_take, Bool.not_eq_false] at hne
    rw [List.length_take] at hk
    have := hwindow k (by rw [List.getElem?_eq_getElem (by omega), hne])
    omega
  have hafter : ∀ b ∈ (bs.drop p).drop n, b = false := by
    intro b hb
    obtain ⟨k, hk, rfl⟩ := List.mem_iff_getElem.mp hb
    by_contra hne
    rw [List.getElem_drop, List.getElem_drop, Bool.not_eq_false] at hne
    rw [List.length_drop, List.length_drop] at hk
    have := hwindow (p + (n + k)) (by rw [List.getElem?_eq_getElem (by omega), hne])
    omega
  intro h0
  rw [← List.take_append_drop p bs, ← List.take_append_drop n (bs.drop p), run_append, run_append,
    R.run_zero_quiet hbefore, R.run_packed h (List.length_take_le _ _), R.run_quiet _ hafter,
    zero_add] at h0
  have hpacked : packed e ((bs.drop p).take n) = 0 := by
    have hzero (k : ℕ) : R.step^[k] 0 = 0 := iterate_map_zero R.step k
    apply hinj.iterate ((bs.drop p).take n).length
    apply hinj.iterate ((bs.drop p).drop n).length
    rw [h0, hzero, hzero]
  have hmiddle := hind _ (List.length_take_le _ _) hpacked
  rw [← List.take_append_drop p bs, ← List.take_append_drop n (bs.drop p), List.mem_append,
    List.mem_append] at hset
  rcases hset with hmem | hmem | hmem
  · exact absurd (hbefore _ hmem) (by decide)
  · exact hmiddle hmem
  · exact absurd (hafter _ hmem) (by decide)

/-! ### Two ones -/

theorem run_one_quiet (a : A) (hquiet : ∀ b ∈ bs, b = false) :
    R.run a (true :: bs) = R.step^[bs.length + 1] (a + R.input) := by
  rw [run_cons, run_quiet R _ hquiet, Function.iterate_succ_apply]
  simp [clock]

/-- A period all of whose maximal proper divisors fail is the minimal one. -/
theorem minimalPeriod_eq {α : Type*} {f : α → α} {x : α} {n : ℕ}
    (hper : Function.IsPeriodicPt f n x)
    (hdiv : ∀ p, p.Prime → p ∣ n → ¬Function.IsPeriodicPt f (n / p) x) :
    Function.minimalPeriod f x = n := by
  obtain ⟨q, hq⟩ := hper.minimalPeriod_dvd
  by_contra hne
  have hq1 : q ≠ 1 := by
    rintro rfl
    exact hne (by omega)
  have hp := Nat.minFac_prime hq1
  obtain ⟨r, hr⟩ := Nat.minFac_dvd q
  have hn' : n = q.minFac * (Function.minimalPeriod f x * r) := by rw [hq, Nat.mul_left_comm, ← hr]
  refine hdiv q.minFac hp ⟨_, hn'⟩ ?_
  rw [hn', Nat.mul_div_cancel_left _ hp.pos]
  exact (Function.isPeriodicPt_minimalPeriod f x).mul_const r

/-- Two ones closer together than the period of the input. -/
theorem run_pair (hinj : Function.Injective R.step)
    (hperiod : bs.length ≤ Function.minimalPeriod R.step R.input)
    (htwo : bs.count true = 2) : R.run 0 bs ≠ 0 := by
  have hquiet {q : List Bool} (hq : true ∉ q) : ∀ b ∈ q, b = false := by
    intro b hb
    by_contra hne
    rw [Bool.not_eq_false] at hne
    exact hq (hne ▸ hb)
  obtain ⟨q₁, rest, rfl, h₁⟩ := List.eq_append_cons_of_mem
    (List.count_pos_iff.mp (show 0 < bs.count true by omega))
  rw [List.count_append, List.count_eq_zero_of_not_mem h₁, List.count_cons_self] at htwo
  obtain ⟨q₂, q₃, rfl, h₂⟩ := List.eq_append_cons_of_mem
    (List.count_pos_iff.mp (show 0 < rest.count true by omega))
  rw [List.count_append, List.count_eq_zero_of_not_mem h₂, List.count_cons_self] at htwo
  have h₃ : true ∉ q₃ := List.count_eq_zero.mp (by omega)
  intro h0
  rw [run_append, run_quiet R 0 (hquiet h₁), iterate_map_zero, ← List.cons_append, run_append,
    R.run_one_quiet 0 (hquiet h₂), R.run_one_quiet _ (hquiet h₃), zero_add] at h0
  -- the sum of the two contributions is already zero before the last steps
  have hsum : R.step^[q₂.length + 1] R.input + R.input = 0 := by
    apply hinj.iterate (q₃.length + 1)
    rw [h0, iterate_map_zero]
  have hback : R.step^[q₂.length + 1] R.input = R.input := by
    rw [← add_left_inj R.input, hsum, R.add_self]
  simp only [List.length_append, List.length_cons] at hperiod
  exact Function.not_isPeriodicPt_of_pos_of_lt_minimalPeriod
    (Nat.succ_ne_zero q₂.length) (by omega) hback

end ShiftRegister

end ModbusPp.Foundation

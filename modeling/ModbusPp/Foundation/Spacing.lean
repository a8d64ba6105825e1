import Mathlib.Tactic

/-! Times that keep their distance. Of times that are each at least `d` after the ones
before, a window of length `T` holds `T / d + 1` at most. Stretches of such times may be
put together if each begins `d` after a time by which the one before has ended. -/

namespace ModbusPp.Foundation

variable {α : Type*} [AddCommGroup α] [LinearOrder α] [IsOrderedAddMonoid α]
  {d a b c : α} {times : List α}

/-- Each time is at least `d` after the ones before it. -/
def Spaced (d : α) (times : List α) : Prop := times.Pairwise fun x y => x + d ≤ y

/-- The last of the times is as late as all the distances take it. -/
theorem Spaced.reaches {x : α} (h : Spaced d (x :: times)) :
    ∃ y ∈ x :: times, x + times.length • d ≤ y := by
  induction times generalizing x with
  | nil => exact ⟨x, List.mem_cons_self, by simp⟩
  | cons x' times ih =>
    obtain ⟨hfirst, hrest⟩ := List.pairwise_cons.mp h
    obtain ⟨y, hmem, hle⟩ := ih hrest
    refine ⟨y, List.mem_cons_of_mem x hmem, ?_⟩
    calc x + (x' :: times).length • d = x + d + times.length • d := by
          rw [List.length_cons, succ_nsmul']; abel
      _ ≤ x' + times.length • d := by gcongr; exact hfirst x' List.mem_cons_self
      _ ≤ y := hle

theorem Spaced.nsmul_le {t w : α} {x : α}
    (h : Spaced d (x :: times)) (hwindow : ∀ y ∈ x :: times, t ≤ y ∧ y ≤ t + w) :
    times.length • d ≤ w := by
  obtain ⟨y, hmem, hle⟩ := h.reaches
  have hfirst := (hwindow x List.mem_cons_self).1
  have hlast := (hwindow y hmem).2
  have hsum : t + times.length • d ≤ t + w := by
    calc t + times.length • d ≤ x + times.length • d := by gcongr
      _ ≤ y := hle
      _ ≤ t + w := hlast
  exact le_of_add_le_add_left hsum

/-- A window of length `w` holds `w / d + 1` of the times at most. -/
theorem Spaced.window_le {d : ℤ} {times : List ℤ} (h : Spaced d times)
    (hd : 0 < d) (t : ℤ) {w : ℤ} (hw : 0 ≤ w) :
    ((times.filter fun x => t ≤ x ∧ x ≤ t + w).length : ℤ) ≤ w / d + 1 := by
  have hspaced : Spaced d (times.filter fun x => t ≤ x ∧ x ≤ t + w) := List.Pairwise.filter _ h
  have hinside : ∀ x ∈ times.filter fun x => t ≤ x ∧ x ≤ t + w, t ≤ x ∧ x ≤ t + w :=
    fun x hx => of_decide_eq_true (List.mem_filter.mp hx).2
  cases hkept : times.filter fun x => t ≤ x ∧ x ≤ t + w with
  | nil =>
    have hquotient := Int.ediv_nonneg hw hd.le
    rw [List.length_nil]
    omega
  | cons x kept =>
    rw [hkept] at hspaced hinside
    have hfits := hspaced.nsmul_le hinside
    rw [nsmul_eq_mul] at hfits
    have hcount := Int.le_ediv_of_mul_le hd hfits
    rw [List.length_cons]
    omega

/-- Times at a distance of `d`, the first as long after `a`, and all of them by `b`. -/
structure Paced (d a : α) (times : List α) (b : α) : Prop where
  spaced : Spaced d times
  after : ∀ x ∈ times, a + d ≤ x
  until_end : ∀ x ∈ times, x ≤ b
  le : a ≤ b

omit [IsOrderedAddMonoid α] in
theorem Paced.nil (h : a ≤ b) : Paced d a [] b :=
  ⟨.nil, List.forall_mem_nil _, List.forall_mem_nil _, h⟩

theorem Paced.single (hd : 0 ≤ d) {x : α} (hafter : a + d ≤ x) (huntil : x ≤ b) :
    Paced d a [x] b where
  spaced := List.pairwise_singleton _ _
  after := List.forall_mem_singleton.mpr hafter
  until_end := List.forall_mem_singleton.mpr huntil
  le := (le_add_of_nonneg_right hd).trans (hafter.trans huntil)

/-- One stretch after the other. -/
theorem Paced.trans {more : List α} (hfirst : Paced d a times b) (hsecond : Paced d b more c) :
    Paced d a (times ++ more) c where
  spaced := by
    refine List.pairwise_append.mpr ⟨hfirst.spaced, hsecond.spaced, fun x hx y hy => ?_⟩
    calc x + d ≤ b + d := by gcongr; exact hfirst.until_end x hx
      _ ≤ y := hsecond.after y hy
  after := by
    refine List.forall_mem_append.mpr ⟨hfirst.after, fun y hy => ?_⟩
    calc a + d ≤ b + d := by gcongr; exact hfirst.le
      _ ≤ y := hsecond.after y hy
  until_end := List.forall_mem_append.mpr
    ⟨fun x hx => (hfirst.until_end x hx).trans hsecond.le, hsecond.until_end⟩
  le := hfirst.le.trans hsecond.le

end ModbusPp.Foundation

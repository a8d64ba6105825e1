import ModbusPp.PubSub.Publisher
import ModbusPp.PubSub.TypedValues

/-! Dead bands of typed subscriptions. The registers of two readings and the values in them
are zero apart together, and otherwise have little to do with each other: registers next to
each other can be values as far apart as values can be. -/

namespace ModbusPp

open Foundation

theorem registerDistance_eq_zero (x y : UInt16) : registerDistance x y = 0 ↔ x = y := by
  rw [registerDistance, ← UInt16.toNat_inj]
  omega

theorem registerDistance_le (x y : UInt16) : registerDistance x y ≤ 65535 := by
  have hx := x.toNat_lt
  have hy := y.toNat_lt
  unfold registerDistance
  omega

/-- The distance of two values. -/
def valueDistance {α : Type} (value : α → ℤ) (c p : α) : ℕ := (value c - value p).natAbs

/-- Two distances, one of the registers and one of their values, that are zero together and
are both at most `far`. There are two that are next to each other by the first and at least a
step apart by the second, and two at most that step apart by the first and as far as can be
by the second. -/
structure Spread {α : Type} (ρ δ : α → α → ℕ) (far : ℕ) : Prop where
  self : ∀ a, ρ a a = 0
  zero_iff : ∀ a b, ρ a b = 0 ↔ δ a b = 0
  raw_le : ∀ a b, ρ a b ≤ far
  value_le : ∀ a b, δ a b ≤ far
  jump : ∃ step, (∃ a b, ρ a b ≤ 1 ∧ step ≤ δ a b) ∧ ∃ a b, ρ a b ≤ step ∧ δ a b = far

namespace Spread

variable {α : Type} {ρ δ : α → α → ℕ} {far k : ℕ} {d : Double}

theorem value_self (h : Spread ρ δ far) (a : α) : δ a a = 0 := (h.zero_iff a a).mp (h.self a)

theorem agree_iff (h : Spread ρ δ far) :
    (∀ a b, d.below (ρ a b) = d.below (δ a b)) ↔ d.below 1 = true ∨ d.below far = false := by
  constructor
  · intro hagree
    obtain ⟨step, ⟨a, b, hraw, hvalue⟩, a', b', hraw', hvalue'⟩ := h.jump
    by_contra hneither
    rw [not_or, Bool.not_eq_true, Bool.not_eq_false] at hneither
    obtain ⟨hone, hfar⟩ := hneither
    have hstep : d.below step = true := by
      refine Double.below_mono hraw' ?_
      rw [hagree, hvalue', hfar]
    have hnext : d.below (ρ a b) = true := by
      rw [hagree]
      exact Double.below_mono hvalue hstep
    rw [Double.below_mono hraw hnext] at hone
    contradiction
  · rintro (hone | hfar) a b
    · by_cases hzero : ρ a b = 0
      · rw [hzero, (h.zero_iff a b).mp hzero]
      · have hvalue := mt (h.zero_iff a b).mpr hzero
        rw [Double.below_mono (Nat.one_le_iff_ne_zero.mpr hzero) hone,
          Double.below_mono (Nat.one_le_iff_ne_zero.mpr hvalue) hone]
    · rw [Double.not_below_of_le (h.raw_le a b) hfar, Double.not_below_of_le (h.value_le a b) hfar]

theorem any_first {f : α × α → Bool} {a b : α} (hf : f (a, a) = false) (k : ℕ) :
    ((a :: List.replicate k a).zip (b :: List.replicate k a)).any f = f (a, b) := by
  rw [List.zip_cons_cons, List.any_cons, List.zip_replicate, Nat.min_self, List.any_replicate, hf]
  simp

/-- So it is for rows of readings. -/
theorem rows_agree_iff (h : Spread ρ δ far) (hk : 0 < k) :
    (∀ cs ds : List α, cs.length = k → ds.length = k →
      ((cs.zip ds).any fun p => d.below (ρ p.1 p.2)) =
        (cs.zip ds).any fun p => d.below (δ p.1 p.2)) ↔
    d.below 1 = true ∨ d.below far = false := by
  constructor
  · intro hagree
    by_cases hzero : d.below 0 = true
    · exact .inl (Double.below_mono zero_le_one hzero)
    rw [Bool.not_eq_true] at hzero
    refine h.agree_iff.mp fun a b => ?_
    have hraw :=
      any_first (f := fun p => d.below (ρ p.1 p.2)) (a := a) (b := b) (by rwa [h.self]) (k - 1)
    have hvalue := any_first (f := fun p => d.below (δ p.1 p.2)) (a := a)
      (b := b) (by rwa [h.value_self]) (k - 1)
    have hlength (x : α) : (x :: List.replicate (k - 1) a).length = k := by
      rw [List.length_cons, List.length_replicate, Nat.sub_add_cancel hk]
    exact hraw.symm.trans ((hagree _ _ (hlength a) (hlength b)).trans hvalue)
  · intro hcond cs ds _ _
    have hsame : (fun p : α × α => d.below (ρ p.1 p.2)) = fun p => d.below (δ p.1 p.2) :=
      funext fun p => h.agree_iff.mpr hcond p.1 p.2
    rw [hsame]

theorem any_all {f : α × α → Bool} (hf : ∀ p, f p = true) {cs ds : List α}
    (hcs : cs.length = k) (hds : ds.length = k) (hk : 0 < k) : (cs.zip ds).any f = true := by
  cases cs with
  | nil => simp at hcs; omega
  | cons c cs =>
    cases ds with
    | nil => simp at hds; omega
    | cons d ds => rw [List.zip_cons_cons, List.any_cons, hf, Bool.true_or]

theorem any_none {f : α × α → Bool} (hf : ∀ p, f p = false) (ps : List (α × α)) :
    ps.any f = false := by
  rw [List.any_eq_false]
  exact fun p _ => by simp [hf p]

theorem odd_rows_agree_iff (h : Spread ρ δ far) (hfar : 65535 ≤ far) (hk : 0 < k) :
    (∀ cs ds : List α, cs.length = k → ds.length = k → ∀ x y : UInt16,
      (((cs.zip ds).any fun p => d.below (ρ p.1 p.2)) || d.below (registerDistance x y)) =
        (cs.zip ds).any fun p => d.below (δ p.1 p.2)) ↔
    d.below 0 = true ∨ d.below far = false := by
  constructor
  · intro hagree
    by_contra hneither
    rw [not_or, Bool.not_eq_true, Bool.not_eq_false] at hneither
    obtain ⟨hzero, hbelow⟩ := hneither
    obtain ⟨step, ⟨a, -, -, -⟩, -⟩ := h.jump
    -- readings without a change, except in the last register
    have hlast (x y : UInt16) : d.below (registerDistance x y) = false := by
      have hsame := hagree (List.replicate k a) (List.replicate k a)
        List.length_replicate List.length_replicate x y
      rw [List.zip_replicate, Nat.min_self, List.any_replicate, List.any_replicate, if_neg hk.ne',
        if_neg hk.ne', h.self, h.value_self, hzero, Bool.false_or] at hsame
      exact hsame
    have hword := hlast 65535 0
    change d.below 65535 = false at hword
    have hrows := (h.rows_agree_iff (d := d) hk).mp fun cs ds hcs hds => by
      rw [← hagree cs ds hcs hds 0 0, hlast, Bool.or_false]
    rcases hrows with hone | hnone
    · rw [Double.below_mono (by decide) hone] at hword
      contradiction
    · rw [hbelow] at hnone
      contradiction
  · rintro (hzero | hnone) cs ds hcs hds x y
    · rw [any_all (fun p => Double.below_mono (Nat.zero_le _) hzero) hcs hds hk,
        any_all (fun p => Double.below_mono (Nat.zero_le _) hzero) hcs hds hk, Bool.true_or]
    · have hword := (registerDistance_le x y).trans hfar
      rw [any_none fun p => Double.not_below_of_le (h.raw_le p.1 p.2) hnone,
        any_none fun p => Double.not_below_of_le (h.value_le p.1 p.2) hnone,
        Double.not_below_of_le hword hnone,
        Bool.or_false]

end Spread

/-- Across the sign the registers 0x7FFF and 0x8000 are next to each other. -/
theorem spread_int16 : Spread registerDistance (valueDistance int16Value) 65535 where
  self x := (registerDistance_eq_zero x x).mpr rfl
  zero_iff x y := by
    have hx := x.toNat_lt
    have hy := y.toNat_lt
    rw [registerDistance_eq_zero, valueDistance, int16Value_eq, int16Value_eq, ← UInt16.toNat_inj]
    unfold signedWord
    split_ifs <;> omega
  raw_le := registerDistance_le
  value_le x y := by
    have hx := x.toNat_lt
    have hy := y.toNat_lt
    rw [valueDistance, int16Value_eq, int16Value_eq]
    unfold signedWord
    split_ifs <;> omega
  jump := ⟨65535, ⟨0x7FFF, 0x8000, by decide, by decide⟩, 0x7FFF, 0x8000, by decide, by decide⟩

/-- The distance of two pairs of registers. -/
def cellDistance (c p : UInt16 × UInt16) : ℕ :=
  max (registerDistance c.1 p.1) (registerDistance c.2 p.2)

theorem cellDistance_eq_zero (c p : UInt16 × UInt16) : cellDistance c p = 0 ↔ c = p := by
  rw [cellDistance, Nat.max_eq_zero_iff, registerDistance_eq_zero, registerDistance_eq_zero,
    Prod.ext_iff]

theorem cellDistance_le (c p : UInt16 × UInt16) : cellDistance c p ≤ 65535 :=
  max_le (registerDistance_le _ _) (registerDistance_le _ _)

theorem next_cell (order : Endian.ByteOrder) :
    ∃ cell n, cellDistance cell (0, 0) = 1 ∧ 0 < n ∧ n < 32768 ∧
      patternOf order cell = UInt32.ofNat (65536 * n + 0) ∧
      patternOf order (0, 0) = UInt32.ofNat (65536 * 0 + 0) := by
  cases order with
  | abcd => exact ⟨(1, 0), 1, by decide⟩
  | dcba => exact ⟨(0, 1), 256, by decide⟩
  | badc => exact ⟨(1, 0), 256, by decide⟩
  | cdab => exact ⟨(0, 1), 1, by decide⟩

theorem spread_wide {high : ℕ → ℤ} (h : HighWord high) (order : Endian.ByteOrder) :
    Spread cellDistance (valueDistance (wideValue high order)) 4294967295 where
  self c := (cellDistance_eq_zero c c).mpr rfl
  zero_iff c p := by
    rw [cellDistance_eq_zero, valueDistance, Int.natAbs_eq_zero, sub_eq_zero]
    exact ⟨fun hcp => hcp ▸ rfl, fun hcp => patternOf_inj (h.wide_inj hcp)⟩
  raw_le c p := (cellDistance_le c p).trans (by decide)
  value_le c p := h.wide_apart _ _
  jump := by
    obtain ⟨cell, n, hraw, hpos, hn, hcell, hzero⟩ := next_cell order
    obtain ⟨u, v, huv⟩ := h.wide_far
    refine ⟨65536, ⟨cell, (0, 0), hraw.le, ?_⟩, cellOf order u, cellOf order v,
      (cellDistance_le _ _).trans (by decide), ?_⟩
    · have hwide : n < 65536 := by omega
      rw [valueDistance, wideValue, wideValue, hcell, hzero,
        (HighWord.wide_words high hwide (by decide)).2,
        (HighWord.wide_words high (by decide) (by decide)).2, h.small n hn, h.small 0 (by decide)]
      omega
    · rw [valueDistance, wideValue, wideValue, patternOf_cellOf, patternOf_cellOf, huv]

/-! ### Registers two by two -/

/-- The registers of cells, in order. -/
def unpaired (cells : List (UInt16 × UInt16)) : List UInt16 := cells.flatMap fun c => [c.1, c.2]

theorem length_unpaired (cells : List (UInt16 × UInt16)) :
    (unpaired cells).length = 2 * cells.length := by
  induction cells with
  | nil => rfl
  | cons c cells ih =>
    change (unpaired cells).length + 1 + 1 = 2 * (cells.length + 1)
    omega

theorem registerCells_unpaired (cells : List (UInt16 × UInt16))
    {rest : List UInt16} (hrest : rest.length < 2) :
    registerCells (unpaired cells ++ rest) = cells := by
  induction cells with
  | nil =>
    match rest, hrest with
    | [], _ => rfl
    | [_], _ => rfl
    | _ :: _ :: _, h => exact absurd h (by simp)
  | cons c cells ih => exact congrArg (c :: ·) ih

theorem exists_cells (regs : List UInt16) :
    ∃ cells rest, regs = unpaired cells ++ rest ∧ cells.length = regs.length / 2 ∧
      rest.length = regs.length % 2 := by
  induction regs using registerCells.induct with
  | case1 r₀ r₁ regs ih =>
    obtain ⟨cells, rest, hregs, hcells, hrest⟩ := ih
    refine ⟨(r₀, r₁) :: cells, rest, congrArg (fun l => r₀ :: r₁ :: l) hregs, ?_, ?_⟩
    · simp only [List.length_cons]
      omega
    · simp only [List.length_cons]
      omega
  | case2 regs hshort =>
    match regs, hshort with
    | [], _ => exact ⟨[], [], rfl, rfl, rfl⟩
    | [r], _ => exact ⟨[], [r], rfl, by simp, by simp⟩
    | r₀ :: r₁ :: regs, h => exact absurd rfl (h r₀ r₁ regs)

theorem any_zip_unpaired (f : UInt16 × UInt16 → Bool) {cs ds : List (UInt16 × UInt16)}
    (h : cs.length = ds.length) (xs ys : List UInt16) :
    ((unpaired cs ++ xs).zip (unpaired ds ++ ys)).any f =
      (((cs.zip ds).any fun p => f (p.1.1, p.2.1) || f (p.1.2, p.2.2)) || (xs.zip ys).any f) := by
  induction cs generalizing ds with
  | nil =>
    rw [List.length_eq_zero_iff.mp h.symm]
    rfl
  | cons c cs ih =>
    cases ds with
    | nil => contradiction
    | cons d ds =>
      change (f _ || (f _ || ((unpaired cs ++ xs).zip (unpaired ds ++ ys)).any f)) = _
      rw [ih (Nat.succ.inj h), List.zip_cons_cons, List.any_cons]
      simp only [Bool.or_assoc]

/-- The change test, when there is something to compare with. -/
theorem changed_eq {current previous : List UInt16} {k : ℕ} (hk : 0 < k)
    (hprevious : previous.length = k) (d : Double) :
    changed d current previous = (current.zip previous).any fun p =>
      d.below (registerDistance p.1 p.2) := by
  have hsome : previous.isEmpty = false := by
    rw [List.isEmpty_eq_false_iff_exists_mem]
    exact List.exists_mem_of_length_pos (by omega)
  rw [changed, hsome, Bool.false_or]

theorem any_values {α : Type} (value : α → ℤ) (d : Double) (cs ps : List α) :
    (((cs.map value).zip (ps.map value)).any fun (c, p) => d.below (c - p).natAbs) =
      (cs.zip ps).any fun p => d.below (valueDistance value p.1 p.2) := by
  rw [List.zip_map, List.any_map]
  rfl

theorem any_wide (d : Double) {cs ds : List (UInt16 × UInt16)}
    (hlength : cs.length = ds.length) (xs ys : List UInt16) :
    ((unpaired cs ++ xs).zip (unpaired ds ++ ys)).any
      (fun p => d.below (registerDistance p.1 p.2)) =
      (((cs.zip ds).any fun p => d.below (cellDistance p.1 p.2)) ||
        (xs.zip ys).any fun p => d.below (registerDistance p.1 p.2)) := by
  rw [any_zip_unpaired _ hlength]
  simp only [cellDistance, Double.below_max]

/-- The change test of so many registers gives that of the values in them. -/
def RowsAgree (high : ℕ → ℤ) (order : Endian.ByteOrder) (d : Double) (count : ℕ) : Prop :=
  ∀ current previous : List UInt16, current.length = count → previous.length = count →
    changed d current previous = ((registerCells current).zip (registerCells previous)).any fun p =>
      d.below (valueDistance (wideValue high order) p.1 p.2)

section Rows

variable {high : ℕ → ℤ} {order : Endian.ByteOrder} {d : Double}

theorem rowsAgree_iff {k r : ℕ} (hr : r < 2) (hpos : 0 < 2 * k + r) :
    RowsAgree high order d (2 * k + r) ↔
      ∀ cs ds : List (UInt16 × UInt16), cs.length = k → ds.length = k →
        ∀ xs ys : List UInt16, xs.length = r → ys.length = r →
          (((cs.zip ds).any fun p => d.below (cellDistance p.1 p.2)) ||
            (xs.zip ys).any fun p => d.below (registerDistance p.1 p.2)) =
          (cs.zip ds).any fun p => d.below (valueDistance (wideValue high order) p.1 p.2) := by
  constructor
  · intro hrows cs ds hcs hds xs ys hxs hys
    have hlength {l : List (UInt16 × UInt16)} {zs : List UInt16} (hl : l.length = k)
      (hzs : zs.length = r) :
        (unpaired l ++ zs).length = 2 * k + r := by
      rw [List.length_append, length_unpaired, hl, hzs]
    have hsame := hrows _ _ (hlength hcs hxs) (hlength hds hys)
    rwa [changed_eq hpos (hlength hds hys), any_wide d (hcs.trans hds.symm) xs ys,
      registerCells_unpaired cs (hxs.trans_lt hr), registerCells_unpaired ds
        (hys.trans_lt hr)] at hsame
  · intro hcells current previous hcurrent hprevious
    obtain ⟨cs, xs, rfl, hcs, hxs⟩ := exists_cells current
    obtain ⟨ds, ys, rfl, hds, hys⟩ := exists_cells previous
    have hhalf : (2 * k + r) / 2 = k := by omega
    have hrest : (2 * k + r) % 2 = r := by omega
    rw [hcurrent, hhalf] at hcs
    rw [hprevious, hhalf] at hds
    rw [hcurrent, hrest] at hxs
    rw [hprevious, hrest] at hys
    rw [changed_eq hpos hprevious, any_wide d (hcs.trans hds.symm) xs ys,
      registerCells_unpaired cs (hxs.trans_lt hr), registerCells_unpaired ds (hys.trans_lt hr)]
    exact hcells cs ds hcs hds xs ys hxs hys

theorem rowsAgree_whole {k : ℕ} (hk : 0 < k) :
    RowsAgree high order d (2 * k) ↔ ∀ cs ds : List (UInt16 × UInt16),
      cs.length = k → ds.length = k →
      ((cs.zip ds).any fun p => d.below (cellDistance p.1 p.2)) =
        (cs.zip ds).any fun p => d.below (valueDistance (wideValue high order) p.1 p.2) := by
  have hrows : RowsAgree high order d (2 * k + 0) ↔ _ := rowsAgree_iff two_pos (by omega)
  rw [Nat.add_zero] at hrows
  rw [hrows]
  constructor
  · intro hcells cs ds hcs hds
    simpa using hcells cs ds hcs hds [] [] rfl rfl
  · intro hcells cs ds hcs hds xs ys hxs _
    rw [List.length_eq_zero_iff.mp hxs, List.zip_nil_left, List.any_nil, Bool.or_false]
    exact hcells cs ds hcs hds

theorem rowsAgree_odd (k : ℕ) :
    RowsAgree high order d (2 * k + 1) ↔
      ∀ cs ds : List (UInt16 × UInt16), cs.length = k → ds.length = k → ∀ x y : UInt16,
        (((cs.zip ds).any fun p => d.below (cellDistance p.1 p.2)) ||
          d.below (registerDistance x y)) =
          (cs.zip ds).any fun p => d.below (valueDistance (wideValue high order) p.1 p.2) := by
  rw [rowsAgree_iff one_lt_two (Nat.succ_pos _)]
  constructor
  · intro hcells cs ds hcs hds x y
    simpa using hcells cs ds hcs hds [x] [y] rfl rfl
  · intro hcells cs ds hcs hds xs ys hxs hys
    obtain ⟨x, rfl⟩ := List.length_eq_one_iff.mp hxs
    obtain ⟨y, rfl⟩ := List.length_eq_one_iff.mp hys
    simpa using hcells cs ds hcs hds x y

theorem rowsAgree_one : RowsAgree high order d 1 ↔ d.below 65535 = false := by
  have hrows : RowsAgree high order d (2 * 0 + 1) ↔ _ := rowsAgree_odd 0
  rw [Nat.mul_zero, Nat.zero_add] at hrows
  rw [hrows]
  constructor
  · intro hcells
    have hword := hcells [] [] rfl rfl 65535 0
    change (false || d.below 65535) = false at hword
    simpa using hword
  · intro hword cs ds hcs hds x y
    rw [List.length_eq_zero_iff.mp hcs, Double.not_below_of_le (registerDistance_le x y) hword]
    rfl

theorem rowsAgree_iff_deadBand (h : HighWord high) {count : ℕ} (hcount : 0 < count) :
    RowsAgree high order d count ↔
      d.below (if count < 2 then 65535 else 4294967295) = false ∨
        2 ≤ count ∧ d.below (if 2 ∣ count then 1 else 0) = true := by
  have hspread := spread_wide h order
  rcases Nat.even_or_odd' count with ⟨k, rfl | rfl⟩
  · have hk : 0 < k := by omega
    have hlong : ¬2 * k < 2 := by omega
    rw [rowsAgree_whole hk, hspread.rows_agree_iff hk, if_neg hlong, if_pos (Nat.dvd_mul_right 2 k),
      and_iff_right (Nat.le_of_not_lt hlong), or_comm]
  · have hodd : ¬2 ∣ 2 * k + 1 := by omega
    rw [if_neg hodd]
    rcases Nat.eq_zero_or_pos k with rfl | hk
    · have hshort : ¬2 ≤ 2 * 0 + 1 := by decide
      rw [Nat.mul_zero, Nat.zero_add, rowsAgree_one, if_pos one_lt_two,
        or_iff_left fun hc => hshort hc.1]
    · have hlong : ¬2 * k + 1 < 2 := by omega
      rw [rowsAgree_odd, hspread.odd_rows_agree_iff (by decide) hk, if_neg hlong,
        and_iff_right (Nat.le_of_not_lt hlong), or_comm]

end Rows

end ModbusPp

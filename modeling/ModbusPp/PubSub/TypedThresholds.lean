import ModbusPp.PubSub.Publisher
import ModbusPp.PubSub.TypedValues

/-! Thresholds of typed subscriptions. The test takes the first register for the value. It
is right on all readings only if the thresholds do not tell the numbers apart that it takes
for one another. -/

namespace ModbusPp

open Foundation

/-- The numbers of a type that are not the number in the first register, with the numbers
there instead. -/
def IntegerType.Confused : IntegerType → ℤ → Prop
  | int16, x => -32768 ≤ x ∧ x < 0 ∨ 32768 ≤ x ∧ x < 65536
  | uint32, x => 0 ≤ x ∧ x < 4294967296
  | int32, x => -2147483648 ≤ x ∧ x < 2147483648

theorem wide_unsigned_iff (x : ℤ) : IntegerType.uint32.Confused x ↔
    ∃ u, wide (fun n => n) u = x := by
  constructor
  · rintro ⟨hx₀, hx⟩
    have hhigh : x.toNat / 65536 < 65536 := by omega
    refine ⟨_, (HighWord.wide_words _ hhigh (Nat.mod_lt x.toNat (by decide))).2.trans ?_⟩
    omega
  · rintro ⟨u, rfl⟩
    have hu := HighWord.high_div u
    simp only [IntegerType.Confused, wide]
    omega

theorem wide_signed_iff (x : ℤ) : IntegerType.int32.Confused x ↔ ∃ u, wide signedWord u = x := by
  constructor
  · rintro ⟨hx₀, hx⟩
    -- the pattern of a negative number is 2 ^ 32 more
    have hhigh : (x % 4294967296).toNat / 65536 < 65536 := by omega
    refine ⟨_,
      (HighWord.wide_words _ hhigh (Nat.mod_lt (x % 4294967296).toNat (by decide))).2.trans ?_⟩
    unfold signedWord
    split_ifs <;> omega
  · rintro ⟨u, rfl⟩
    have hu := HighWord.high_div u
    simp only [IntegerType.Confused, wide, signedWord]
    split_ifs <;> omega

namespace SubscriptionRequest

variable {request : SubscriptionRequest}

/-- All the numbers of a set are outside the thresholds, or none is. -/
def Uniform (request : SubscriptionRequest) (S : ℤ → Prop) : Prop :=
  (∀ x, S x → request.outside x = true) ∨ ∀ x, S x → request.outside x = false

theorem Uniform.same {S : ℤ → Prop} (h : request.Uniform S) {x y : ℤ} (hx : S x) (hy : S y) :
    request.outside x = request.outside y := by
  rcases h with h | h
  · rw [h x hx, h y hy]
  · rw [h x hx, h y hy]

theorem uniform_of_same {S : ℤ → Prop} (x : ℤ)
    (h : ∀ y, S y → request.outside y = request.outside x) :
    request.Uniform S := by
  cases hx : request.outside x with
  | false => exact .inr fun y hy => (h y hy).trans hx
  | true => exact .inl fun y hy => (h y hy).trans hx

theorem outsideThresholds_eq (request : SubscriptionRequest) (current : List UInt16) :
    outsideThresholds request current = current.head?.any fun reg => request.outside reg.toNat := by
  cases current with
  | nil => rfl
  | cons reg current =>
    rw [List.head?_cons, Option.any_some, outside]
    simp only [Double.belowInt_natCast, Double.aboveInt_natCast]
    rfl

/-- If the test of the registers is right, a negative number is taken as the register that is
65536 more. -/
theorem outside_wrap
    (hagree : ∀ reg : UInt16, request.outside reg.toNat = request.outside (int16Value reg)) {x : ℤ}
    (hlow : -32768 ≤ x) (hhigh : x < 0) : request.outside (x + 65536) = request.outside x := by
  have hreg : (UInt16.ofNat (x + 65536).toNat).toNat = (x + 65536).toNat :=
    toNat_ofNat_word (by omega)
  have hsame := hagree (UInt16.ofNat (x + 65536).toNat)
  have hback : signedWord (x + 65536).toNat = x := by
    unfold signedWord
    split_ifs <;> omega
  rwa [int16Value_eq, hreg, hback, Int.toNat_of_nonneg (by omega)] at hsame

theorem int16_uniform
    (hagree : ∀ reg : UInt16, request.outside reg.toNat = request.outside (int16Value reg)) :
    request.Uniform IntegerType.int16.Confused := by
  by_cases hinside : ∃ x, -32768 ≤ x ∧ x < 0 ∧ request.outside x = false
  · -- from a number inside up to its register all is inside, and so is the rest
    obtain ⟨x, hlow, hhigh, hx⟩ := hinside
    have hreg := (outside_wrap hagree hlow hhigh).trans hx
    have hlast := (outside_wrap hagree (by decide) (by decide)).trans
      (inside_between (show x ≤ -1 by omega) (show -1 ≤ x + 65536 by omega) hx hreg)
    have hfirst := (outside_wrap hagree (by decide) (by decide)).symm.trans
      (inside_between (show x ≤ -32768 + 65536 by omega)
        (show -32768 + 65536 ≤ x + 65536 by omega) hx hreg)
    refine .inr fun y hy => inside_between ?_ ?_ hfirst hlast
    · rcases hy with hy | hy <;> omega
    · rcases hy with hy | hy <;> omega
  · have hnegative (x : ℤ) (hlow : -32768 ≤ x) (hhigh : x < 0) : request.outside x = true := by
      by_contra hx
      exact hinside ⟨x, hlow, hhigh, Bool.not_eq_true _ ▸ hx⟩
    refine .inl fun x hx => ?_
    rcases hx with ⟨hlow, hhigh⟩ | ⟨hlow, hhigh⟩
    · exact hnegative x hlow hhigh
    · have hx := outside_wrap hagree (x := x - 65536) (by omega) (by omega)
      rwa [sub_add_cancel, hnegative (x - 65536) (by omega) (by omega)] at hx

theorem int16_outside_iff :
    (∀ reg : UInt16, request.outside reg.toNat = request.outside (int16Value reg)) ↔
      request.Uniform IntegerType.int16.Confused := by
  refine ⟨int16_uniform, fun huniform reg => ?_⟩
  have hreg := reg.toNat_lt
  rw [int16Value_eq, signedWord]
  split_ifs with hsmall
  · rfl
  · refine huniform.same (.inr ?_) (.inl ?_) <;> omega

section Wide

variable {high : ℕ → ℤ} {σ : ℕ → ℕ}

/-- The test looks at the high word: it gives the answer for 0 wherever the high word is 0. -/
theorem alike_of_high (h : HighWord high) (hσ : ∀ n, σ n < 65536) (hσ₀ : σ 0 = 0)
    (hagree : ∀ m < 65536, ∀ l < 65536, request.outside (σ m) =
      request.outside (65536 * high m + (l : ℕ)))
    {m l : ℕ} (hm : m < 65536) (hl : l < 65536) :
    request.outside (65536 * high m + l) = request.outside 0 := by
  have hlow (l : ℕ) (hl : l < 65536) : request.outside l = request.outside 0 := by
    have hsame := hagree 0 (by decide) l hl
    rw [hσ₀, h.small 0 (by decide)] at hsame
    simpa using hsame.symm
  rw [← hagree m hm l hl, hlow (σ m) (hσ m)]

theorem alike_of_low (h : HighWord high) (hσ : ∀ n, σ n < 65536)
    (hagree : ∀ m < 65536, ∀ l < 65536, request.outside (σ l) =
      request.outside (65536 * high m + (l : ℕ)))
    {m l : ℕ} (hm : m < 65536) (hl : l < 65536) :
    request.outside (65536 * high m + l) = request.outside 0 := by
  have hnext (l : ℕ) (hl : l < 65536) : request.outside (65536 + l) = request.outside l := by
    have hzero := hagree 0 (by decide) l hl
    have hone := hagree 1 (by decide) l hl
    rw [h.small 0 (by decide)] at hzero
    rw [h.small 1 (by decide)] at hone
    simpa using hone.symm.trans hzero
  have hmultiple : request.outside 65536 = request.outside 0 := by simpa using hnext 0 (by decide)
  have hlow (l : ℕ) (hl : l < 65536) : request.outside l = request.outside 0 := by
    cases hzero : request.outside 0 with
    | false =>
      rw [hzero] at hmultiple
      exact inside_between (by omega) (by omega) hzero hmultiple
    | true =>
      by_contra hinside
      rw [Bool.not_eq_true] at hinside
      have hsame := inside_between (show (l : ℤ) ≤ 65536 by omega)
        (show (65536 : ℤ) ≤ 65536 + l by omega) hinside
        ((hnext l hl).trans hinside)
      rw [hmultiple, hzero] at hsame
      contradiction
  rw [← hagree m hm l hl, hlow (σ l) (hσ l)]

theorem swapBytes_lt (n : ℕ) : swapBytes n < 65536 := by
  unfold swapBytes
  omega

theorem wide_alike (h : HighWord high) (order : Endian.ByteOrder)
    (hagree : ∀ u : UInt32, request.outside (firstWord order u.toNat) =
      request.outside (wide high u)) (u : UInt32) :
    request.outside (wide high u) = request.outside 0 := by
  have hwords (m : ℕ) (hm : m < 65536) (l : ℕ) (hl : l < 65536) :
      request.outside (firstWord order (65536 * m + l)) =
        request.outside (65536 * high m + (l : ℕ)) := by
    obtain ⟨hnat, hwide⟩ := HighWord.wide_words high hm hl
    rw [← hwide, ← hagree, hnat]
  have hhigh (m l : ℕ) (hl : l < 65536) : (65536 * m + l) / 65536 = m := by omega
  have hlow (m l : ℕ) (hl : l < 65536) : (65536 * m + l) % 65536 = l := by omega
  have hm := HighWord.high_div u
  have hl : u.toNat % 65536 < 65536 := Nat.mod_lt _ (by decide)
  have hcast : wide high u = 65536 * high (u.toNat / 65536) + (u.toNat % 65536 : ℕ) := by
    rw [wide, Int.natCast_mod]; rfl
  rw [hcast]
  cases order with
  | abcd =>
    refine alike_of_high (σ := fun n => n % 65536) h (fun n => Nat.mod_lt _ (by decide))
      rfl (fun m hm l hl => ?_) hm hl
    rw [← hwords m hm l hl, firstWord, hhigh m l hl]
    exact congrArg request.outside (congrArg Nat.cast (Nat.mod_eq_of_lt hm))
  | dcba =>
    refine alike_of_low (σ := swapBytes) h swapBytes_lt (fun m hm l hl => ?_) hm hl
    rw [← hwords m hm l hl, firstWord, hlow m l hl]
  | badc =>
    refine alike_of_high (σ := swapBytes) h swapBytes_lt rfl (fun m hm l hl => ?_) hm hl
    rw [← hwords m hm l hl, firstWord, hhigh m l hl]
  | cdab =>
    refine alike_of_low (σ := fun n => n % 65536) h (fun n => Nat.mod_lt _ (by decide))
      (fun m hm l hl => ?_) hm hl
    rw [← hwords m hm l hl, firstWord, hlow m l hl]
    exact congrArg request.outside (congrArg Nat.cast (Nat.mod_eq_of_lt hl))

theorem wide_outside_iff (h : HighWord high) (order : Endian.ByteOrder) {S : ℤ → Prop}
    (hS : ∀ x, S x ↔ ∃ u, wide high u = x) :
    (∀ cell : UInt16 × UInt16, request.outside cell.1.toNat =
      request.outside (wideValue high order cell)) ↔
      request.Uniform S := by
  constructor
  · intro hagree
    refine uniform_of_same 0 fun x hx => ?_
    obtain ⟨u, rfl⟩ := (hS x).mp hx
    refine wide_alike h order (fun u => ?_) u
    rw [← toNat_cellOf_fst, hagree, wideValue, patternOf_cellOf]
  · intro huniform cell
    refine huniform.same ((hS _).mpr ⟨UInt32.ofNat (65536 * 0 + cell.1.toNat), ?_⟩)
      ((hS _).mpr ⟨_, rfl⟩)
    rw [(HighWord.wide_words high (by decide) cell.1.toNat_lt).2, h.small 0 (by decide)]
    simp

end Wide

theorem wide_thresholds_iff {high : ℕ → ℤ} (h : HighWord high)
    (order : Endian.ByteOrder) {S : ℤ → Prop} (hS : ∀ x, S x ↔ ∃ u, wide high u = x) (count : ℕ) :
    (∀ current : List UInt16, current.length = count → outsideThresholds request current =
      ((registerCells current).map (wideValue high order)).head?.any request.outside) ↔
    if 2 ≤ count then request.Uniform S else ∀ x : ℕ, x < 65536 * count →
      request.outside x = false := by
  simp only [outsideThresholds_eq]
  split_ifs with hlong
  · rw [← wide_outside_iff h order hS]
    constructor
    · intro hagree cell
      exact hagree (cell.1 :: cell.2 :: List.replicate (count - 2) 0)
        (by rw [List.length_cons, List.length_cons, List.length_replicate]; omega)
    · intro hagree current hcurrent
      match current, hcurrent with
      | r₀ :: r₁ :: regs, _ => exact hagree (r₀, r₁)
      | [r], hcurrent => rw [List.length_singleton] at hcurrent; omega
      | [], hcurrent => rw [List.length_nil] at hcurrent; omega
  · constructor
    · intro hagree x hx
      have hone : count = 1 := by omega
      have hreg : (UInt16.ofNat x).toNat = x := toNat_ofNat_word (by omega)
      have hsame := hagree [UInt16.ofNat x] hone.symm
      change request.outside (UInt16.ofNat x).toNat = false at hsame
      rwa [hreg] at hsame
    · intro hinside current hcurrent
      match current, hcurrent with
      | [], _ => rfl
      | [r], hcurrent =>
        have hr := r.toNat_lt
        have hone : count = 1 := hcurrent.symm
        exact hinside r.toNat (by omega)
      | _ :: _ :: _, hcurrent => rw [List.length_cons, List.length_cons] at hcurrent; omega

end SubscriptionRequest

end ModbusPp

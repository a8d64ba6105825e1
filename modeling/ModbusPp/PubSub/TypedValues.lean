import ModbusPp.PubSub.Publisher
import ModbusPp.RegisterMap.TypeCodec

/-! Integer values behind the registers of a subscription. A request names a type and a
byte order; the tests of `should_notify` compare registers one by one, as unsigned numbers.
The distance of two values has little to do with that of their registers, across a sign
change or from one word to the next, and the first register is not the value. -/

namespace ModbusPp

open Foundation Endian

/-- The integer types whose values are not single registers read as unsigned numbers. -/
inductive IntegerType
  | int16
  | uint32
  | int32
  deriving DecidableEq

namespace IntegerType

/-- The `RegisterType`. -/
def code : IntegerType → RegisterType
  | int16 => ⟨1⟩
  | uint32 => ⟨2⟩
  | int32 => ⟨3⟩

theorem code_inj {ty ty' : IntegerType} (h : ty.code = ty'.code) : ty = ty' := by
  cases ty <;> cases ty' <;> first | rfl | cases h

/-- The registers of a value. -/
def width : IntegerType → ℕ
  | int16 => 1
  | uint32 => 2
  | int32 => 2

end IntegerType

/-- The `ByteOrder` on the wire. -/
def Endian.ByteOrder.code : Endian.ByteOrder → ModbusPp.ByteOrder
  | .abcd => ⟨0⟩
  | .dcba => ⟨1⟩
  | .badc => ⟨2⟩
  | .cdab => ⟨3⟩

theorem Endian.ByteOrder.code_inj {order order' : Endian.ByteOrder}
    (h : order.code = order'.code) : order = order' := by
  cases order <;> cases order' <;> first | rfl | cases h

/-! ### Decoded values -/

/-- Registers two by two. -/
def registerCells : List UInt16 → List (UInt16 × UInt16)
  | r₀ :: r₁ :: regs => (r₀, r₁) :: registerCells regs
  | _ => []

def int16Value (reg : UInt16) : ℤ := reg.toInt16.toInt

def uint32Value (order : Endian.ByteOrder) (cell : UInt16 × UInt16) : ℤ :=
  (TypeCodec.decodeUint32 order ![cell.1, cell.2]).toNat

def int32Value (order : Endian.ByteOrder) (cell : UInt16 × UInt16) : ℤ :=
  (TypeCodec.decodeInt32 order ![cell.1, cell.2]).toInt

/-- The values in a row of registers. The byte order is one of the bytes of a value of
two registers, and says nothing about a single one. -/
def IntegerType.values (order : Endian.ByteOrder) : IntegerType → List UInt16 → List ℤ
  | int16, regs => regs.map int16Value
  | uint32, regs => (registerCells regs).map (uint32Value order)
  | int32, regs => (registerCells regs).map (int32Value order)

/-! ### Registers and numbers -/

/-- A register, read as a signed number. -/
def signedWord (n : ℕ) : ℤ := if n < 32768 then n else n - 65536

/-- The number with these high and low words, the high one read in a given way. -/
def wide (high : ℕ → ℤ) (u : UInt32) : ℤ := 65536 * high (u.toNat / 65536) + u.toNat % 65536

theorem int16Value_eq (reg : UInt16) : int16Value reg = signedWord reg.toNat := by
  change reg.toBitVec.toInt = _
  rw [BitVec.toInt_eq_toNat_cond, signedWord]
  change (if 2 * reg.toNat < 2 ^ 16 then (reg.toNat : ℤ) else (reg.toNat : ℤ) - (2 ^ 16 : ℕ)) = _
  norm_num
  split_ifs <;> omega

theorem toInt_toInt32 (u : UInt32) : u.toInt32.toInt = wide signedWord u := by
  have hu := u.toNat_lt
  change u.toBitVec.toInt = _
  rw [BitVec.toInt_eq_toNat_cond, wide, signedWord]
  change (if 2 * u.toNat < 2 ^ 32 then (u.toNat : ℤ) else (u.toNat : ℤ) - (2 ^ 32 : ℕ)) = _
  norm_num
  split_ifs <;> omega

/-- A way to read a high word: nothing is lost, and the low half is read as it is. -/
structure HighWord (high : ℕ → ℤ) : Prop where
  small : ∀ n < 32768, high n = n
  inj : ∀ m < 65536, ∀ n < 65536, high m = high n → m = n
  apart : ∀ m < 65536, ∀ n < 65536, high m - high n ≤ 65535
  far : ∃ m < 65536, ∃ n < 65536, high m - high n = 65535

theorem HighWord.unsigned : HighWord (fun n => n) where
  small _ _ := rfl
  inj m _ n _ h := by omega
  apart m _ n _ := by omega
  far := ⟨65535, by decide, 0, by decide, by decide⟩

theorem HighWord.signed : HighWord signedWord where
  small n hn := if_pos hn
  inj m hm n hn h := by
    unfold signedWord at h
    split_ifs at h <;> omega
  apart m hm n hn := by
    unfold signedWord
    split_ifs <;> omega
  far := ⟨32767, by decide, 32768, by decide, by decide⟩

namespace HighWord

variable {high : ℕ → ℤ}

theorem high_div (u : UInt32) : u.toNat / 65536 < 65536 := by
  have hu := u.toNat_lt
  omega

theorem wide_inj (h : HighWord high) {u v : UInt32} (huv : wide high u = wide high v) : u = v := by
  have hhigh : high (u.toNat / 65536) = high (v.toNat / 65536) := by
    unfold wide at huv
    omega
  have hwords := h.inj _ (high_div u) _ (high_div v) hhigh
  apply UInt32.toNat_inj.mp
  unfold wide at huv
  omega

theorem wide_apart (h : HighWord high) (u v : UInt32) :
    (wide high u - wide high v).natAbs ≤ 4294967295 := by
  have huv := h.apart _ (high_div u) _ (high_div v)
  have hvu := h.apart _ (high_div v) _ (high_div u)
  unfold wide
  omega

/-- The number with given words. -/
theorem wide_words (high : ℕ → ℤ) {m l : ℕ} (hm : m < 65536) (hl : l < 65536) :
    (UInt32.ofNat (65536 * m + l)).toNat = 65536 * m + l ∧
      wide high (UInt32.ofNat (65536 * m + l)) = 65536 * high m + l := by
  have hword : (UInt32.ofNat (65536 * m + l)).toNat = 65536 * m + l := UInt32.toNat_ofNat_of_lt' (by
    change 65536 * m + l < 2 ^ 32
    omega)
  have hhigh : (65536 * m + l) / 65536 = m := by omega
  refine ⟨hword, ?_⟩
  rw [wide, hword, hhigh]
  omega

theorem wide_far (h : HighWord high) : ∃ u v, (wide high u - wide high v).natAbs = 4294967295 := by
  obtain ⟨m, hm, n, hn, hmn⟩ := h.far
  refine ⟨UInt32.ofNat (65536 * m + 65535), UInt32.ofNat (65536 * n + 0), ?_⟩
  rw [(wide_words high hm (by decide)).2, (wide_words high hn (by decide)).2]
  omega

end HighWord

/-- The two registers of a pattern. -/
def cellOf (order : Endian.ByteOrder) (u : UInt32) : UInt16 × UInt16 :=
  (TypeCodec.encodeUint32 order u ⟨0, Nat.two_pos⟩, TypeCodec.encodeUint32
    order u ⟨1, Nat.one_lt_two⟩)

/-- The pattern in two registers. -/
def patternOf (order : Endian.ByteOrder) (cell : UInt16 × UInt16) : UInt32 :=
  TypeCodec.decodeUint32 order ![cell.1, cell.2]

@[simp] theorem patternOf_cellOf (order : Endian.ByteOrder) (u : UInt32) :
    patternOf order (cellOf order u) = u := by
  have hregs : ![(cellOf order u).1, (cellOf order u).2] = TypeCodec.encodeUint32 order u := by
    funext i
    fin_cases i <;> rfl
  rw [patternOf, hregs]
  exact (TypeCodec.exact_uint32 order).decodeRegs_encodeRegs u

@[simp] theorem cellOf_patternOf (order : Endian.ByteOrder) (cell : UInt16 × UInt16) :
    cellOf order (patternOf order cell) = cell := by
  have hregs := (TypeCodec.exact_uint32 order).encodeRegs_decodeRegs ![cell.1, cell.2]
  exact Prod.ext (congrFun hregs 0) (congrFun hregs 1)

theorem patternOf_inj {order : Endian.ByteOrder} {c d : UInt16 × UInt16}
    (h : patternOf order c = patternOf order d) :
    c = d := by
  rw [← cellOf_patternOf order c, h, cellOf_patternOf]

/-- The number in two registers. -/
def wideValue (high : ℕ → ℤ) (order : Endian.ByteOrder) (cell : UInt16 × UInt16) : ℤ :=
  wide high (patternOf order cell)

theorem uint32Value_eq (order : Endian.ByteOrder) (cell : UInt16 × UInt16) :
    uint32Value order cell = wideValue (fun n => n) order cell := by
  change ((patternOf order cell).toNat : ℤ) = _
  rw [wideValue, wide]
  omega

theorem int32Value_eq (order : Endian.ByteOrder) (cell : UInt16 × UInt16) :
    int32Value order cell = wideValue signedWord order cell :=
  toInt_toInt32 _

/-- The bytes of a register exchanged. -/
def swapBytes (n : ℕ) : ℕ := 256 * (n % 256) + n / 256 % 256

/-- The first register of a pattern has one of its words, perhaps with the bytes exchanged. -/
def firstWord : Endian.ByteOrder → ℕ → ℕ
  | .abcd, n => n / 65536
  | .dcba, n => swapBytes (n % 65536)
  | .badc, n => swapBytes (n / 65536)
  | .cdab, n => n % 65536

theorem toNat_byte (u : UInt32) (i : Fin 4) :
    (toBigEndianBytes (n := 4) u.toBitVec i).toNat = u.toNat / 2 ^ ((3 - (i : ℕ)) * 8) % 256 := by
  have hmask := Nat.and_two_pow_sub_one_eq_mod (u.toNat / 2 ^ ((3 - (i : ℕ)) * 8)) 8
  simp only [toBigEndianBytes, UInt8.toNat_ofBitVec, BitVec.toNat_setWidth, BitVec.toNat_and,
    BitVec.toNat_ushiftRight, Nat.shiftRight_eq_div_pow]
  simp at hmask ⊢
  rw [hmask]
  omega

theorem toNat_cellOf_fst (order : Endian.ByteOrder) (u : UInt32) :
    (cellOf order u).1.toNat = firstWord order u.toNat := by
  have hu := u.toNat_lt
  have b0 := toNat_byte u 0
  have b1 := toNat_byte u 1
  have b2 := toNat_byte u 2
  have b3 := toNat_byte u 3
  norm_num at b0 b1 b2 b3
  cases order <;>
    simp only [cellOf, TypeCodec.encodeUint32, encodeUint32Regs, pairRegisters, decodeUint16,
      Endian.encodeUint32,
      Endian.encode, reorder, Width.size] <;>
    simp [toNat_word, b0, b1, b2, b3, firstWord, swapBytes] <;> omega

namespace IntegerType

theorem values_nil (ty : IntegerType) (order : Endian.ByteOrder) : ty.values order [] = [] := by
  cases ty <;> rfl

theorem uint32_values (order : Endian.ByteOrder) (regs : List UInt16) :
    uint32.values order regs = (registerCells regs).map (wideValue (fun n => n) order) := by
  rw [← funext (uint32Value_eq order)]
  rfl

theorem int32_values (order : Endian.ByteOrder) (regs : List UInt16) :
    int32.values order regs = (registerCells regs).map (wideValue signedWord order) := by
  rw [← funext (int32Value_eq order)]
  rfl

end IntegerType

namespace Double

/-- `d < x`. -/
def belowInt (d : Double) (x : ℤ) : Bool :=
  match d with
  | .finite q => decide (q < x)
  | .infinity negative => negative
  | .nan => false

/-- `x < d`. -/
def aboveInt (d : Double) (x : ℤ) : Bool :=
  match d with
  | .finite q => decide ((x : ℚ) < q)
  | .infinity negative => !negative
  | .nan => false

theorem belowInt_natCast (d : Double) (x : ℕ) : d.belowInt x = d.below x := by
  cases d <;> simp [belowInt, below]

theorem aboveInt_natCast (d : Double) (x : ℕ) : d.aboveInt x = d.above x := by
  cases d <;> simp [aboveInt, above]

theorem below_mono {d : Double} {x y : ℕ} (hxy : x ≤ y) (h : d.below x = true) :
    d.below y = true := by
  cases d with
  | finite q =>
    simp only [below, decide_eq_true_eq] at h ⊢
    exact h.trans_le (by exact_mod_cast hxy)
  | infinity negative => exact h
  | nan => exact h

theorem not_below_of_le {d : Double} {x y : ℕ} (hxy : x ≤ y) (h : d.below y = false) :
    d.below x = false := by
  by_contra hx
  rw [Bool.not_eq_false] at hx
  rw [below_mono hxy hx] at h
  contradiction

theorem below_max (d : Double) (x y : ℕ) : d.below (max x y) = (d.below x || d.below y) := by
  rcases le_total x y with hxy | hxy
  · rw [max_eq_right hxy]
    cases hx : d.below x with
    | false => rfl
    | true => rw [below_mono hxy hx, Bool.or_self]
  · rw [max_eq_left hxy]
    cases hy : d.below y with
    | false => rw [Bool.or_false]
    | true => rw [below_mono hxy hy, Bool.or_self]

end Double

namespace SubscriptionRequest

/-- A number is outside the thresholds. -/
def outside (request : SubscriptionRequest) (x : ℤ) : Bool :=
  request.thresholdHigh.any (·.belowInt x) || request.thresholdLow.any (·.aboveInt x)

/-- Between two numbers that are not outside there is none that is. -/
theorem inside_between {request : SubscriptionRequest} {x y z : ℤ} (hxy : x ≤ y) (hyz : y ≤ z)
    (hx : request.outside x = false) (hz : request.outside z = false) :
    request.outside y = false := by
  have hlow (d : Double) (h : d.aboveInt x = false) : d.aboveInt y = false := by
    cases d with
    | finite q =>
      simp only [Double.aboveInt, decide_eq_false_iff_not, not_lt] at h ⊢
      exact h.trans (by exact_mod_cast hxy)
    | infinity negative => exact h
    | nan => exact h
  have hhigh (d : Double) (h : d.belowInt z = false) : d.belowInt y = false := by
    cases d with
    | finite q =>
      simp only [Double.belowInt, decide_eq_false_iff_not, not_lt] at h ⊢
      exact le_trans (by exact_mod_cast hyz) h
    | infinity negative => exact h
    | nan => exact h
  rw [outside, Bool.or_eq_false_iff] at hx hz ⊢
  constructor
  · cases hd : request.thresholdHigh with
    | none => rfl
    | some d => exact hhigh d (by simpa [hd] using hz.1)
  · cases hd : request.thresholdLow with
    | none => rfl
    | some d => exact hlow d (by simpa [hd] using hx.2)

end SubscriptionRequest

end ModbusPp

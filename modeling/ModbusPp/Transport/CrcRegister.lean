import ModbusPp.Foundation.ShiftRegister
import ModbusPp.Transport.FrameCodec

/-! The CRC of `frame_codec.cpp` as a shift register. The bytes enter bit by bit,
least significant first, and the two CRC bytes at the end of a frame, low byte
first, are two more bytes of input: the check passes exactly when the register
ends at zero. -/

namespace ModbusPp.FrameCodec

open Foundation

/-- A CRC value, with exclusive or for its addition. -/
@[ext] structure CrcWord where
  bits : UInt16
  deriving DecidableEq

namespace CrcWord

instance : Add CrcWord := ⟨fun x y => ⟨x.bits ^^^ y.bits⟩⟩
instance : Zero CrcWord := ⟨⟨0⟩⟩
instance : Neg CrcWord := ⟨id⟩

instance : AddCommGroup CrcWord where
  nsmul := nsmulRec
  zsmul := zsmulRec
  add_assoc _ _ _ := CrcWord.ext (UInt16.xor_assoc _ _ _)
  zero_add _ := CrcWord.ext UInt16.zero_xor
  add_zero _ := CrcWord.ext UInt16.xor_zero
  neg_add_cancel _ := CrcWord.ext UInt16.xor_self
  add_comm _ _ := CrcWord.ext (UInt16.xor_comm _ _)

@[simp] theorem add_bits (x y : CrcWord) : (x + y).bits = x.bits ^^^ y.bits := rfl

@[simp] theorem zero_bits : (0 : CrcWord).bits = 0 := rfl

/-- Bit `i` of the value. -/
def bit (x : CrcWord) (i : ℕ) : Bool := x.bits.toBitVec.getLsbD i

theorem ext_bit {x y : CrcWord} (h : ∀ i < 16, x.bit i = y.bit i) : x = y :=
  CrcWord.ext (UInt16.toBitVec_inj.mp (BitVec.eq_of_getLsbD_eq fun i hi => h i hi))

@[simp] theorem bit_add (x y : CrcWord) (i : ℕ) : (x + y).bit i = xor (x.bit i) (y.bit i) := by
  simp [bit]

@[simp] theorem bit_zero (i : ℕ) : (0 : CrcWord).bit i = false := by
  simp [bit]

theorem bit_of_ge (x : CrcWord) {i : ℕ} (hi : 16 ≤ i) : x.bit i = false :=
  BitVec.getLsbD_of_ge _ _ hi

end CrcWord

/-- The polynomial. -/
def crcPoly : CrcWord := ⟨0xA001⟩

theorem crcBit_bit (x : CrcWord) (i : ℕ) :
    (⟨crcBit x.bits⟩ : CrcWord).bit i = xor (x.bit (i + 1)) (x.bit 0 && crcPoly.bit i) := by
  have hlow : x.bits &&& 1 ≠ 0 ↔ x.bit 0 = true := by
    have hmask : (x.bits &&& 1).toBitVec = BitVec.setWidth 16 (BitVec.ofBool (x.bit 0)) :=
      BitVec.and_one_eq_setWidth_ofBool_getLsbD
    rw [ne_eq, ← UInt16.toBitVec_inj, hmask]
    cases x.bit 0 <;> decide
  unfold crcBit
  split_ifs with h
  · rw [hlow.mp h]
    simp [CrcWord.bit, crcPoly, Nat.add_comm]
  · rw [Bool.eq_false_iff.mpr (mt hlow.mpr h)]
    simp [CrcWord.bit, Nat.add_comm]

/-- The inner loop's round, as an additive map. -/
def crcStep : CrcWord →+ CrcWord where
  toFun x := ⟨crcBit x.bits⟩
  map_zero' := rfl
  map_add' x y := by
    apply CrcWord.ext_bit
    intro i _
    simp only [CrcWord.bit_add, crcBit_bit]
    cases x.bit 0 <;> cases y.bit 0 <;> cases x.bit (i + 1) <;> cases y.bit (i + 1) <;> simp

theorem crcStep_bit (x : CrcWord) (i : ℕ) : (crcStep x).bit i = xor (x.bit (i + 1))
    (x.bit 0 && crcPoly.bit i) :=
  crcBit_bit x i

theorem crcStep_iterate (n : ℕ) (x : UInt16) : crcStep^[n] ⟨x⟩ = ⟨crcBit^[n] x⟩ := by
  induction n generalizing x with
  | zero => rfl
  | succ n ih => rw [Function.iterate_succ_apply, Function.iterate_succ_apply, ← ih]; rfl

/-- The top bit of the polynomial tells which branch a round took. -/
theorem crcStep_injective : Function.Injective crcStep := by
  rw [injective_iff_map_eq_zero]
  intro x hx
  have hbit (i : ℕ) : xor (x.bit (i + 1)) (x.bit 0 && crcPoly.bit i) = false := by
    rw [← crcStep_bit, hx, CrcWord.bit_zero]
  have hlow : x.bit 0 = false := by
    have htop := hbit 15
    rw [x.bit_of_ge (by omega), show crcPoly.bit 15 = true by decide] at htop
    simpa using htop
  apply CrcWord.ext_bit
  intro i _
  rw [CrcWord.bit_zero]
  cases i with
  | zero => exact hlow
  | succ i => simpa [hlow] using hbit i

def crcRegister : ShiftRegister CrcWord where
  step := crcStep
  input := ⟨1⟩
  add_self _ := CrcWord.ext UInt16.xor_self

/-! ### Bytes on the line -/

/-- A byte in transmission order, least significant bit first. -/
def byteBits (b : UInt8) : List Bool := (List.range 8).map b.toBitVec.getLsbD

/-- Bytes in transmission order. -/
def lineBits (bytes : List UInt8) : List Bool := bytes.flatMap byteBits

@[simp] theorem length_byteBits (b : UInt8) : (byteBits b).length = 8 := rfl

theorem length_lineBits (bytes : List UInt8) : (lineBits bytes).length = 8 * bytes.length := by
  induction bytes with
  | nil => rfl
  | cons b bytes ih =>
    rw [lineBits, List.flatMap_cons, List.length_append, length_byteBits]
    rw [lineBits] at ih
    rw [ih, List.length_cons]
    omega

/-- The value with only bit `i`. -/
def crcTap (i : ℕ) : CrcWord := ⟨⟨BitVec.twoPow 16 i⟩⟩

theorem crcTap_bit (i j : ℕ) : (crcTap i).bit j = (decide (j < 16) && decide (i = j)) := by
  simp [crcTap, CrcWord.bit, BitVec.getLsbD_twoPow]
  grind

theorem crcTaps : crcRegister.Taps crcTap 16 where
  zero := by decide
  succ i hi := by
    have hall : ∀ i < 15, crcStep (crcTap (i + 1)) = crcTap i := by decide
    exact hall i (by omega)

theorem packed_bit (bs : List Bool) (k j : ℕ) (hj : j < 16) :
    (ShiftRegister.packed (fun i => crcTap (i + k)) bs).bit j =
      (decide (k ≤ j) && bs.getD (j - k) false) := by
  induction bs generalizing k with
  | nil => simp [ShiftRegister.packed]
  | cons b bs ih =>
    have htail := ih (k + 1)
    simp only [← Nat.add_assoc, Nat.add_right_comm _ k 1] at htail
    rw [ShiftRegister.packed, CrcWord.bit_add, htail]
    have hhead : (if b = true then crcTap (0 + k) else 0).bit j = (b && decide (k = j)) := by
      cases b <;> simp [crcTap_bit, hj]
    rw [hhead]
    rcases Nat.lt_trichotomy k j with hlt | rfl | hgt
    · obtain ⟨d, rfl⟩ := Nat.exists_eq_add_of_lt hlt
      simp [show k + d + 1 - k = d + 1 by omega, show k + d + 1 - (k + 1) = d by omega,
        show ¬k = k + d + 1 by omega, show k ≤ k + d + 1 by omega]
    · simp
    · simp [show ¬k + 1 ≤ j by omega, show ¬k ≤ j by omega, show ¬k = j by omega]

theorem packed_crcTap_bit (bs : List Bool) {j : ℕ} (hj : j < 16) :
    (ShiftRegister.packed crcTap bs).bit j = bs.getD j false := by
  have h := packed_bit bs 0 j hj
  simpa using h

/-- Up to sixteen bits are told apart by the value they pack into. -/
theorem crcTap_independent (w : List Bool) (hlen : w.length ≤ 16)
    (h : ShiftRegister.packed crcTap w = 0) :
    true ∉ w := by
  intro hset
  obtain ⟨j, hj, hget⟩ := List.mem_iff_getElem.mp hset
  have hbit := packed_crcTap_bit w (show j < 16 by omega)
  rw [h, CrcWord.bit_zero, List.getD_eq_getElem?_getD, List.getElem?_eq_getElem hj, hget] at hbit
  exact absurd hbit (by decide)

/-! ### The source's loops -/

theorem packed_byteBits (b : UInt8) : ShiftRegister.packed crcTap (byteBits b) = ⟨b.toUInt16⟩ := by
  apply CrcWord.ext_bit
  intro j hj
  rw [packed_crcTap_bit _ hj, CrcWord.bit, UInt8.toBitVec_toUInt16, BitVec.getLsbD_setWidth]
  rcases Nat.lt_or_ge j 8 with hlow | hhigh
  · simp [byteBits, hlow, hj]
  · simp [byteBits, hhigh]

theorem packed_word (hi lo : UInt8) :
    ShiftRegister.packed crcTap (byteBits lo ++ byteBits hi) = ⟨word hi lo⟩ := by
  apply CrcWord.ext_bit
  intro j hj
  rw [packed_crcTap_bit _ hj]
  simp only [CrcWord.bit, word, UInt16.toBitVec_or, UInt16.toBitVec_shiftLeft,
    UInt8.toBitVec_toUInt16, BitVec.getLsbD_or]
  rcases Nat.lt_or_ge j 8 with hlow | hhigh
  · simp [byteBits, hlow, hj, List.getD_eq_getElem?_getD]
  · simp [byteBits, hhigh, hj, List.getD_eq_getElem?_getD]

theorem crcByte_eq (crc : UInt16) (b : UInt8) :
    crcRegister.run ⟨crc⟩ (byteBits b) = ⟨crcByte crc b⟩ := by
  rw [crcRegister.run_packed crcTaps (by simp), packed_byteBits, length_byteBits]
  exact crcStep_iterate 8 _

theorem run_lineBits (crc : UInt16) (data : List UInt8) :
    crcRegister.run ⟨crc⟩ (lineBits data) = ⟨data.foldl crcByte crc⟩ := by
  induction data generalizing crc with
  | nil => rfl
  | cons b data ih =>
    rw [lineBits, List.flatMap_cons, ShiftRegister.run_append, crcByte_eq]
    exact ih _

/-- What the register holds after a whole frame, its CRC bytes included. -/
def residue (frame : List UInt8) : CrcWord := crcRegister.run ⟨0xFFFF⟩ (lineBits frame)

/-- The CRC bytes bring the register to zero exactly when they spell the CRC. -/
theorem residue_eq_zero_iff (data : List UInt8) (lo hi : UInt8) :
    residue (data ++ [lo, hi]) = 0 ↔ crc16 data = word hi lo := by
  have htail : lineBits [lo, hi] = byteBits lo ++ byteBits hi := by simp [lineBits]
  have hsplit : lineBits (data ++ [lo, hi]) = lineBits data ++ lineBits [lo, hi] :=
    List.flatMap_append
  rw [residue, hsplit, ShiftRegister.run_append, run_lineBits 0xFFFF data, htail,
    crcRegister.run_packed crcTaps (by simp), packed_word]
  change crcStep^[_] ((⟨crc16 data⟩ : CrcWord) + ⟨word hi lo⟩) = 0 ↔ _
  have hzero (k : ℕ) : crcStep^[k] 0 = 0 := iterate_map_zero crcStep k
  rw [← hzero (byteBits lo ++ byteBits hi).length, (crcStep_injective.iterate _).eq_iff,
    CrcWord.ext_iff, CrcWord.add_bits, CrcWord.zero_bits]
  exact UInt16.xor_eq_zero_iff

end ModbusPp.FrameCodec

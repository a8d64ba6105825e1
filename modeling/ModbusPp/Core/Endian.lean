import ModbusPp.Core.Words

/-! Multi-register values in the four byte orders (`endian.hpp`). A `float` or a
`double` is its bit pattern, which is all that its conversions touch. Each encoder is a
bijection, composed from the bytes of the pattern, the reordering and the reading of
byte pairs as registers, and its decoder is the inverse. -/

namespace ModbusPp.Endian

/-- The named byte orders; `A` is the most significant byte. -/
inductive ByteOrder
  | abcd
  | dcba
  | badc
  | cdab
  deriving DecidableEq, Repr

/-- The sizes that `reorder` is defined for. -/
inductive Width
  | four
  | eight
  deriving DecidableEq

namespace Width

abbrev size : Width → ℕ
  | four => 4
  | eight => 8

abbrev registers : Width → ℕ
  | four => 2
  | eight => 4

theorem size_eq (w : Width) : w.size = 2 * w.registers := by cases w <;> rfl

theorem even_lt {w : Width} (i : Fin w.registers) : 2 * (i : ℕ) < w.size := by
  have hsize := w.size_eq
  omega

theorem odd_lt {w : Width} (i : Fin w.registers) : 2 * (i : ℕ) + 1 < w.size := by
  have hsize := w.size_eq
  omega

theorem half_lt {w : Width} (i : Fin w.size) : (i : ℕ) / 2 < w.registers := by
  have hsize := w.size_eq
  omega

end Width

def reorder : ByteOrder → (w : Width) → (Fin w.size → UInt8) → Fin w.size → UInt8
  | .abcd, _, bytes => bytes
  | .dcba, .four, bytes => ![bytes 3, bytes 2, bytes 1, bytes 0]
  | .dcba, .eight, bytes =>
      ![bytes 7, bytes 6, bytes 5, bytes 4, bytes 3, bytes 2, bytes 1, bytes 0]
  | .badc, .four, bytes => ![bytes 1, bytes 0, bytes 3, bytes 2]
  | .badc, .eight, bytes =>
      ![bytes 1, bytes 0, bytes 3, bytes 2, bytes 5, bytes 4, bytes 7, bytes 6]
  | .cdab, .four, bytes => ![bytes 2, bytes 3, bytes 0, bytes 1]
  | .cdab, .eight, bytes =>
      ![bytes 6, bytes 7, bytes 4, bytes 5, bytes 2, bytes 3, bytes 0, bytes 1]

/-- Every reordering exchanges positions by a mask. -/
def mask : ByteOrder → (w : Width) → Fin w.size
  | .abcd, .four => 0
  | .abcd, .eight => 0
  | .dcba, .four => 3
  | .dcba, .eight => 7
  | .badc, .four => 1
  | .badc, .eight => 1
  | .cdab, .four => 2
  | .cdab, .eight => 6

theorem reorder_apply (order : ByteOrder) (w : Width) (bytes : Fin w.size → UInt8)
    (i : Fin w.size) :
    reorder order w bytes i = bytes (i ^^^ mask order w) := by
  cases order <;> cases w <;> fin_cases i <;> rfl

theorem mask_cancel (order : ByteOrder) (w : Width) (i : Fin w.size) :
    i ^^^ mask order w ^^^ mask order w = i := by
  cases order <;> cases w <;> revert i <;> decide

theorem reorder_involutive (order : ByteOrder) (w : Width) :
    Function.Involutive (reorder order w) := by
  intro bytes
  funext i
  rw [reorder_apply, reorder_apply, mask_cancel]

/-- Exchanging the bytes of the swapped words reverses the value. -/
theorem reorder_badc_cdab (w : Width) (bytes : Fin w.size → UInt8) :
    reorder .badc w (reorder .cdab w bytes) = reorder .dcba w bytes := by
  have hmask (i : Fin w.size) : i ^^^ mask .badc w ^^^ mask .cdab w = i ^^^ mask .dcba w := by
    cases w <;> revert i <;> decide
  funext i
  rw [reorder_apply, reorder_apply, reorder_apply, hmask]

section Pattern

variable {n : ℕ}

/-- The loop writes every byte once. -/
def toBigEndianBytes (value : BitVec (8 * n)) : Fin n → UInt8 := fun i =>
  UInt8.ofBitVec (((value >>> ((n - 1 - i) * 8)) &&& 0xFF).setWidth 8)

def fromBigEndianBytes (data : Fin n → UInt8) : BitVec (8 * n) :=
  (List.finRange n).foldl
    (fun value i => value ||| (data i).toBitVec.setWidth (8 * n) <<< ((n - 1 - i) * 8)) 0

theorem getLsbD_toBigEndianBytes (value : BitVec (8 * n)) (i : Fin n) {j : ℕ} (hj : j < 8) :
    (toBigEndianBytes value i).toBitVec.getLsbD j = value.getLsbD ((n - 1 - i) * 8 + j) := by
  have hi := i.isLt
  have hmask : (0xFF : BitVec (8 * n)).getLsbD j = true := by
    have hones : ∀ j < 8, (255 : ℕ).testBit j = true := by decide
    have hbit : j < 8 * n := by omega
    change (BitVec.ofNat (8 * n) 255).getLsbD j = true
    rw [BitVec.getLsbD_ofNat, hones j hj, decide_eq_true hbit, Bool.true_and]
  simp only [toBigEndianBytes, BitVec.getLsbD_setWidth, BitVec.getLsbD_and,
    BitVec.getLsbD_ushiftRight, hmask, hj]
  simp

theorem getLsbD_foldl_or {ι : Type} {w : ℕ} (l : List ι) (f : ι → BitVec w)
    (init : BitVec w) (j : ℕ) :
    (l.foldl (fun value i => value ||| f i) init).getLsbD j =
      (init.getLsbD j || l.any fun i => (f i).getLsbD j) := by
  induction l generalizing init with
  | nil => simp
  | cons i l ih => rw [List.foldl_cons, ih, BitVec.getLsbD_or, List.any_cons, Bool.or_assoc]

theorem getLsbD_fromBigEndianBytes (data : Fin n → UInt8) (i : Fin n) {j : ℕ} (hj : j < 8) :
    (fromBigEndianBytes data).getLsbD ((n - 1 - i) * 8 + j) = (data i).toBitVec.getLsbD j := by
  have hi := i.isLt
  have hbit : (n - 1 - i) * 8 + j < 8 * n := by omega
  rw [fromBigEndianBytes, getLsbD_foldl_or, Bool.eq_iff_iff, Bool.or_eq_true, List.any_eq_true]
  simp only [BitVec.getLsbD_shiftLeft, BitVec.getLsbD_setWidth]
  constructor
  · rintro (h | ⟨k, -, h⟩)
    · simp at h
    · simp only [Bool.and_eq_true, decide_eq_true_eq, Bool.not_eq_true',
        decide_eq_false_iff_not] at h
      obtain ⟨⟨-, hlow⟩, -, hk⟩ := h
      have hhigh := BitVec.lt_of_getLsbD hk
      have hki : k = i := by omega
      subst hki
      rwa [Nat.add_sub_cancel_left] at hk
  · intro h
    refine .inr ⟨i, List.mem_finRange i, ?_⟩
    rw [Nat.add_sub_cancel_left, h]
    simp only [Bool.and_eq_true, decide_eq_true_eq, Bool.not_eq_true', decide_eq_false_iff_not]
    exact ⟨⟨hbit, by omega⟩, by omega, trivial⟩

theorem fromBigEndianBytes_toBigEndianBytes (value : BitVec (8 * n)) :
    fromBigEndianBytes (toBigEndianBytes value) = value := by
  apply BitVec.eq_of_getLsbD_eq
  intro j hj
  let i : Fin n := ⟨n - 1 - j / 8, by omega⟩
  have hplace : (n - 1 - i) * 8 + j % 8 = j := by simp only [i]; omega
  have hmod : j % 8 < 8 := Nat.mod_lt _ (by decide)
  rw [← hplace, getLsbD_fromBigEndianBytes _ i hmod, getLsbD_toBigEndianBytes _ i hmod]

theorem toBigEndianBytes_fromBigEndianBytes (data : Fin n → UInt8) :
    toBigEndianBytes (fromBigEndianBytes data) = data := by
  funext i
  apply UInt8.toBitVec_inj.mp
  apply BitVec.eq_of_getLsbD_eq
  intro j hj
  rw [getLsbD_toBigEndianBytes _ i hj, getLsbD_fromBigEndianBytes _ i hj]

end Pattern

/-- The bytes of a pattern in a byte order. -/
def encode (order : ByteOrder) (w : Width) (bits : BitVec (8 * w.size)) : Fin w.size → UInt8 :=
  reorder order w (toBigEndianBytes bits)

def decode (order : ByteOrder) (w : Width) (data : Fin w.size → UInt8) : BitVec (8 * w.size) :=
  fromBigEndianBytes (reorder order w data)

def encodeUint16 (value : UInt16) : Fin 2 → UInt8 := ![hiByte value, loByte value]

def decodeUint16 (data : Fin 2 → UInt8) : UInt16 := word (data 0) (data 1)

/-- The registers of a byte array, each read with `decodeUint16`. -/
def pairRegisters (w : Width) (bytes : Fin w.size → UInt8) : Fin w.registers → UInt16 := fun i =>
  decodeUint16 ![bytes ⟨2 * i, Width.even_lt i⟩, bytes ⟨2 * i + 1, Width.odd_lt i⟩]

/-- The bytes of a register array, each register written with `encodeUint16`. -/
def registerPairs (w : Width) (regs : Fin w.registers → UInt16) : Fin w.size → UInt8 := fun i =>
  encodeUint16 (regs ⟨i / 2, Width.half_lt i⟩) ⟨i % 2, Nat.mod_lt _ (by decide)⟩

section Equivalences

def patternEquiv (n : ℕ) : BitVec (8 * n) ≃ (Fin n → UInt8) where
  toFun := toBigEndianBytes
  invFun := fromBigEndianBytes
  left_inv := fromBigEndianBytes_toBigEndianBytes
  right_inv := toBigEndianBytes_fromBigEndianBytes

def pairEquiv (w : Width) : (Fin w.size → UInt8) ≃ (Fin w.registers → UInt16) where
  toFun := pairRegisters w
  invFun := registerPairs w
  left_inv bytes := by
    funext ⟨i, hi⟩
    rcases Nat.even_or_odd' i with ⟨k, rfl | rfl⟩
    · simp [pairRegisters, registerPairs, encodeUint16, decodeUint16]
    · have hhalf : (2 * k + 1) / 2 = k := by omega
      have hodd : (2 * k + 1) % 2 = 1 := by omega
      simp [pairRegisters, registerPairs, encodeUint16, decodeUint16, hhalf, hodd]
  right_inv regs := by
    funext i
    have hhalf : (2 * (i : ℕ) + 1) / 2 = i := by omega
    have hodd : (2 * (i : ℕ) + 1) % 2 = 1 := by omega
    simp [pairRegisters, registerPairs, encodeUint16, decodeUint16, hhalf, hodd]

def encodeEquiv (order : ByteOrder) (w : Width) : BitVec (8 * w.size) ≃ (Fin w.size → UInt8) :=
  (patternEquiv w.size).trans (reorder_involutive order w).toPerm

end Equivalences

/-- A `float`, as its bit pattern. -/
structure FloatBits where
  bits : UInt32
  deriving DecidableEq, Repr

/-- A `double`, as its bit pattern. -/
structure DoubleBits where
  bits : UInt64
  deriving DecidableEq, Repr

variable (order : ByteOrder)

def encodeFloat (value : FloatBits) : Fin 4 → UInt8 := encode order .four value.bits.toBitVec

def encodeDouble (value : DoubleBits) : Fin 8 → UInt8 := encode order .eight value.bits.toBitVec

def encodeUint32 (value : UInt32) : Fin 4 → UInt8 := encode order .four value.toBitVec

def encodeInt32 (value : Int32) : Fin 4 → UInt8 := encodeUint32 order value.toUInt32

def decodeFloat (data : Fin 4 → UInt8) : FloatBits := ⟨⟨decode order .four data⟩⟩

def decodeDouble (data : Fin 8 → UInt8) : DoubleBits := ⟨⟨decode order .eight data⟩⟩

def decodeUint32 (data : Fin 4 → UInt8) : UInt32 := ⟨decode order .four data⟩

def decodeInt32 (data : Fin 4 → UInt8) : Int32 := (decodeUint32 order data).toInt32

def encodeFloatRegs (value : FloatBits) : Fin 2 → UInt16 :=
  pairRegisters .four (encodeFloat order value)

def decodeFloatRegs (regs : Fin 2 → UInt16) : FloatBits :=
  decodeFloat order (registerPairs .four regs)

def encodeUint32Regs (value : UInt32) : Fin 2 → UInt16 :=
  pairRegisters .four (encodeUint32 order value)

def decodeUint32Regs (regs : Fin 2 → UInt16) : UInt32 :=
  decodeUint32 order (registerPairs .four regs)

def encodeDoubleRegs (value : DoubleBits) : Fin 4 → UInt16 :=
  pairRegisters .eight (encodeDouble order value)

def decodeDoubleRegs (regs : Fin 4 → UInt16) : DoubleBits :=
  decodeDouble order (registerPairs .eight regs)

section Equivalences

def floatEquiv : FloatBits ≃ BitVec 32 where
  toFun value := value.bits.toBitVec
  invFun bits := ⟨⟨bits⟩⟩
  left_inv _ := rfl
  right_inv _ := rfl

def doubleEquiv : DoubleBits ≃ BitVec 64 where
  toFun value := value.bits.toBitVec
  invFun bits := ⟨⟨bits⟩⟩
  left_inv _ := rfl
  right_inv _ := rfl

def uint32Equiv : UInt32 ≃ BitVec 32 where
  toFun value := value.toBitVec
  invFun bits := ⟨bits⟩
  left_inv _ := rfl
  right_inv _ := rfl

def int32Equiv : Int32 ≃ BitVec 32 where
  toFun value := value.toUInt32.toBitVec
  invFun bits := (⟨bits⟩ : UInt32).toInt32
  left_inv _ := rfl
  right_inv _ := rfl

end Equivalences

end ModbusPp.Endian

import ModbusPp.Core.Endian
import ModbusPp.RegisterMap.BatchRequest

/-! Typed values and their registers (`type_codec.hpp`). -/

namespace ModbusPp.TypeCodec

open Endian Foundation

section Numeric

variable (order : Endian.ByteOrder)

def encodeFloat (value : FloatBits) : Fin 2 → UInt16 := encodeFloatRegs order value

def decodeFloat (regs : Fin 2 → UInt16) : FloatBits := decodeFloatRegs order regs

def encodeDouble (value : DoubleBits) : Fin 4 → UInt16 := encodeDoubleRegs order value

def decodeDouble (regs : Fin 4 → UInt16) : DoubleBits := decodeDoubleRegs order regs

def encodeUint32 (value : UInt32) : Fin 2 → UInt16 := encodeUint32Regs order value

def decodeUint32 (regs : Fin 2 → UInt16) : UInt32 := decodeUint32Regs order regs

def encodeInt32 (value : Int32) : Fin 2 → UInt16 := encodeUint32Regs order value.toUInt32

def decodeInt32 (regs : Fin 2 → UInt16) : Int32 := (decodeUint32Regs order regs).toInt32

end Numeric

/-- An encoding at the byte level and at the register level. -/
structure Exact {α : Type} (w : Width) (encode : α → Fin w.size → UInt8)
    (decode : (Fin w.size → UInt8) → α) (encodeRegs : α → Fin w.registers → UInt16)
    (decodeRegs : (Fin w.registers → UInt16) → α) : Prop where
  decode_encode : ∀ value, decode (encode value) = value
  encode_decode : ∀ data, encode (decode data) = data
  decodeRegs_encodeRegs : ∀ value, decodeRegs (encodeRegs value) = value
  encodeRegs_decodeRegs : ∀ regs, encodeRegs (decodeRegs regs) = regs
  pairs : ∀ value, List.ofFn (encodeRegs value) = registersOf (List.ofFn (encode value))

theorem ofFn_pairRegisters (w : Width) (bytes : Fin w.size → UInt8) :
    List.ofFn (pairRegisters w bytes) = registersOf (List.ofFn bytes) := by
  cases w <;> rfl

theorem exact_of_equiv {α : Type} (w : Width) (order : Endian.ByteOrder)
    (e : α ≃ BitVec (8 * w.size)) :
    Exact w (fun value => encode order w (e value)) (fun data => e.symm (decode order w data))
      (fun value => pairRegisters w (encode order w (e value)))
      (fun regs => e.symm (decode order w (registerPairs w regs))) where
  decode_encode := (e.trans (encodeEquiv order w)).left_inv
  encode_decode := (e.trans (encodeEquiv order w)).right_inv
  decodeRegs_encodeRegs := ((e.trans (encodeEquiv order w)).trans (pairEquiv w)).left_inv
  encodeRegs_decodeRegs := ((e.trans (encodeEquiv order w)).trans (pairEquiv w)).right_inv
  pairs _ := ofFn_pairRegisters w _

variable (order : Endian.ByteOrder)

theorem exact_uint32 :
    Exact .four (Endian.encodeUint32 order) (Endian.decodeUint32 order)
      (encodeUint32 order) (decodeUint32 order) :=
  exact_of_equiv .four order uint32Equiv

theorem exact_int32 :
    Exact .four (Endian.encodeInt32 order) (Endian.decodeInt32 order)
      (encodeInt32 order) (decodeInt32 order) :=
  exact_of_equiv .four order int32Equiv

theorem exact_float :
    Exact .four (Endian.encodeFloat order) (Endian.decodeFloat order)
      (encodeFloat order) (decodeFloat order) :=
  exact_of_equiv .four order floatEquiv

theorem exact_double :
    Exact .eight (Endian.encodeDouble order) (Endian.decodeDouble order)
      (encodeDouble order) (decodeDouble order) :=
  exact_of_equiv .eight order doubleEquiv

/-- Typed values survive every byte order, through the codecs and through the functions
that they wrap. -/
theorem typed_values_exact :
    Exact .four (Endian.encodeUint32 order) (Endian.decodeUint32 order)
      (encodeUint32Regs order) (decodeUint32Regs order) ∧
    Exact .four (Endian.encodeFloat order) (Endian.decodeFloat order)
      (encodeFloatRegs order) (decodeFloatRegs order) ∧
    Exact .eight (Endian.encodeDouble order) (Endian.decodeDouble order)
      (encodeDoubleRegs order) (decodeDoubleRegs order) ∧
    Exact .four (Endian.encodeUint32 order) (Endian.decodeUint32 order)
      (encodeUint32 order) (decodeUint32 order) ∧
    Exact .four (Endian.encodeInt32 order) (Endian.decodeInt32 order)
      (encodeInt32 order) (decodeInt32 order) ∧
    Exact .four (Endian.encodeFloat order) (Endian.decodeFloat order)
      (encodeFloat order) (decodeFloat order) ∧
    Exact .eight (Endian.encodeDouble order) (Endian.decodeDouble order)
      (encodeDouble order) (decodeDouble order) ∧
    ∀ w bytes, reorder .badc w (reorder .cdab w bytes) = reorder .dcba w bytes :=
  ⟨exact_uint32 order, exact_float order, exact_double order, exact_uint32 order, exact_int32 order,
    exact_float order,
    exact_double order, reorder_badc_cdab⟩

section Text

/-- A `char`, which is signed, as a `std::uint16_t`. -/
def charWord (c : UInt8) : UInt16 := c.toInt8.toInt16.toUInt16

/-- The loop of `encode_string`, from index `i` on. -/
def encodeChars : List UInt8 → ℕ → List UInt16 → List UInt16
  | [], _, regs => regs
  | c :: str, i, regs =>
    if i / 2 < regs.length then
      encodeChars str (i + 1)
        (if i % 2 = 0 then regs.set (i / 2) (charWord c <<< 8) else regs.modify
          (i / 2) (· ||| charWord c))
    else regs

/-- Two characters to a register, padded with zeros. -/
def encodeString (str : List UInt8) (maxRegisters : UInt16) : List UInt16 :=
  encodeChars str 0 (List.replicate maxRegisters.toNat 0)

/-- The loop of `decode_string`, `n` registers from index `i` on; a zero byte ends it. -/
def decodeChars (regs : Span UInt16) : ℕ → ℕ → List UInt8 → Checked (List UInt8)
  | 0, _, result => return result
  | n + 1, i, result => do
    let reg ← regs.read i
    if hiByte reg = 0 then return result
    if loByte reg = 0 then return result ++ [hiByte reg]
    decodeChars regs n (i + 1) (result ++ [hiByte reg, loByte reg])

def decodeString (regs : Span UInt16) (count : UInt16) : Checked (List UInt8) :=
  decodeChars regs count.toNat 0 []

theorem length_encodeChars (str : List UInt8) (i : ℕ) (regs : List UInt16) :
    (encodeChars str i regs).length = regs.length := by
  induction str generalizing i regs with
  | nil => rfl
  | cons c str ih =>
    rw [encodeChars]
    split_ifs
    · rw [ih, List.length_set]
    · rw [ih, List.length_modify]
    · rfl

@[simp] theorem length_encodeString (str : List UInt8) (maxRegisters : UInt16) :
    (encodeString str maxRegisters).length = maxRegisters.toNat := by
  rw [encodeString, length_encodeChars, List.length_replicate]

theorem decodeChars_congr {regs regs' : Span UInt16} {n i : ℕ}
    (h : ∀ k < i + n, regs.read k = regs'.read k) (result : List UInt8) :
    decodeChars regs n i result = decodeChars regs' n i result := by
  induction n generalizing i result with
  | zero => rfl
  | succ n ih =>
    have hrest (result : List UInt8) :
        decodeChars regs n (i + 1) result = decodeChars regs' n (i + 1) result :=
      ih (fun k hk => h k (by omega)) result
    simp only [decodeChars, h i (by omega), hrest]

/-- Decoding a string reads no register beyond the count. -/
theorem decodeString_congr {regs regs' : Span UInt16} {count : UInt16}
    (h : ∀ k < count.toNat, regs.read k = regs'.read k) :
    decodeString regs count = decodeString regs' count :=
  decodeChars_congr (fun k hk => h k (by omega)) []

end Text

end ModbusPp.TypeCodec

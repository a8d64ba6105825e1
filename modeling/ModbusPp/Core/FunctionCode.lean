import Mathlib.Tactic

/-! Function codes and frame flags (`function_codes.hpp`). The enumerations have
a fixed underlying type and are cast from received bytes, so every value of that
type can occur; each is a wrapper around it with the named values as constants. -/

namespace ModbusPp

structure FunctionCode where
  byte : UInt8
  deriving DecidableEq, Repr

namespace FunctionCode

def readHoldingRegisters : FunctionCode := ⟨0x03⟩
def writeSingleRegister : FunctionCode := ⟨0x06⟩
def writeMultipleRegisters : FunctionCode := ⟨0x10⟩

/-- The marker of extended frames. -/
def extended : FunctionCode := ⟨0x6E⟩

/-- The marker of pushed extended frames. -/
def extendedStream : FunctionCode := ⟨0x6F⟩

/-- The codes whose frames carry an extended header. -/
def IsExtended (fc : FunctionCode) : Prop := fc = extended ∨ fc = extendedStream

instance (fc : FunctionCode) : Decidable fc.IsExtended := inferInstanceAs (Decidable (_ ∨ _))

/-- Bit 7 marks a Modbus exception response. -/
def IsException (fc : FunctionCode) : Prop := fc.byte &&& 0x80 ≠ 0

instance (fc : FunctionCode) : Decidable fc.IsException := inferInstanceAs (Decidable (_ ≠ _))

theorem readHoldingRegisters_standard : ¬readHoldingRegisters.IsExtended := by decide

theorem writeSingleRegister_standard : ¬writeSingleRegister.IsExtended := by decide

theorem writeMultipleRegisters_standard : ¬writeMultipleRegisters.IsExtended := by decide

end FunctionCode

/-- Sub-function codes inside extended frames. -/
structure ExtendedFunctionCode where
  byte : UInt8
  deriving DecidableEq, Repr

namespace ExtendedFunctionCode

def batchRead : ExtendedFunctionCode := ⟨0x01⟩
def eventNotification : ExtendedFunctionCode := ⟨0x05⟩
def authChallenge : ExtendedFunctionCode := ⟨0x06⟩
def authResponse : ExtendedFunctionCode := ⟨0x07⟩
def discover : ExtendedFunctionCode := ⟨0x08⟩
def discoverResponse : ExtendedFunctionCode := ⟨0x09⟩
def pipelineBegin : ExtendedFunctionCode := ⟨0x0A⟩

end ExtendedFunctionCode

/-- The flag field of the extended header. -/
structure FrameFlag where
  bits : UInt16
  deriving DecidableEq, Repr

namespace FrameFlag

def none : FrameFlag := ⟨0x0000⟩
def hasTimestamp : FrameFlag := ⟨0x0001⟩
def hasHMAC : FrameFlag := ⟨0x0002⟩

instance : OrOp FrameFlag := ⟨fun a b => ⟨a.bits ||| b.bits⟩⟩
instance : AndOp FrameFlag := ⟨fun a b => ⟨a.bits &&& b.bits⟩⟩

/-- `has_flag`. -/
def has (flags flag : FrameFlag) : Bool := decide (flags &&& flag ≠ none)

theorem or_bits (a b : FrameFlag) : (a ||| b).bits = a.bits ||| b.bits := rfl

theorem has_iff (a b : FrameFlag) : a.has b = true ↔ a.bits &&& b.bits ≠ 0 := by
  have h : (a &&& b = none) ↔ (a.bits &&& b.bits = 0) :=
    ⟨fun h => congrArg bits h, fun h => congrArg FrameFlag.mk h⟩
  simp [has, h]

theorem has_or_self (a b : FrameFlag) (hb : b.bits ≠ 0) : (a ||| b).has b = true := by
  rw [has_iff, or_bits, UInt16.and_comm, UInt16.or_comm]
  rwa [show b.bits &&& (b.bits ||| a.bits) = b.bits from by
    apply UInt16.toBitVec_inj.mp; ext i; simp; tauto]

/-- Setting one flag leaves a flag with no bit in common as it was. -/
theorem has_or_of_disjoint (a b c : FrameFlag) (h : b.bits &&& c.bits = 0) :
    (a ||| b).has c = a.has c := by
  have hd : (a.bits ||| b.bits) &&& c.bits = a.bits &&& c.bits := by
    have hz : ∀ i, (b.bits.toBitVec &&& c.bits.toBitVec).getLsbD i = false := by
      intro i; rw [← UInt16.toBitVec_and, h]; simp
    apply UInt16.toBitVec_inj.mp
    ext i hi
    have := hz i
    simp only [BitVec.getLsbD_and] at this
    simp
    grind
  rw [Bool.eq_iff_iff, has_iff, has_iff, or_bits, hd]

end FrameFlag

end ModbusPp

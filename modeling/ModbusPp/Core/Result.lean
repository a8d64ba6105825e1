import Mathlib.Tactic

/-! Error codes and the two `Result` classes (`error.hpp`, `result.hpp`), as
compiled with `NDEBUG`: the assertion in the `std::error_code` constructor of
`Result` is not evaluated, so a failed result may carry the success code.
`Result<void>` has no separate success flag and reads success off its code. -/

namespace ModbusPp

/-- `ErrorCode`, an enumeration over `int`. A cast can produce any value, so the
named codes are constants and not the only inhabitants. -/
structure ErrorCode where
  value : ℤ
  deriving DecidableEq, Repr

namespace ErrorCode

def success : ErrorCode := ⟨0⟩
def illegalFunction : ErrorCode := ⟨1⟩
def illegalDataAddress : ErrorCode := ⟨2⟩
def illegalDataValue : ErrorCode := ⟨3⟩
def slaveDeviceFailure : ErrorCode := ⟨4⟩
def acknowledge : ErrorCode := ⟨5⟩
def slaveDeviceBusy : ErrorCode := ⟨6⟩
def negativeAcknowledge : ErrorCode := ⟨7⟩
def memoryParityError : ErrorCode := ⟨8⟩
def gatewayPathUnavailable : ErrorCode := ⟨0x0A⟩
def gatewayTargetFailed : ErrorCode := ⟨0x0B⟩
def authenticationFailed : ErrorCode := ⟨0x80⟩
def sessionExpired : ErrorCode := ⟨0x81⟩
def hmacMismatch : ErrorCode := ⟨0x82⟩
def pipelineOverflow : ErrorCode := ⟨0x83⟩
def subscriptionLimitReached : ErrorCode := ⟨0x84⟩
def payloadTooLarge : ErrorCode := ⟨0x85⟩
def fragmentReassemblyFailed : ErrorCode := ⟨0x86⟩
def transportDisconnected : ErrorCode := ⟨0x87⟩
def timeoutExpired : ErrorCode := ⟨0x88⟩
def typeCodecMismatch : ErrorCode := ⟨0x89⟩
def unsupportedVersion : ErrorCode := ⟨0x8A⟩
def correlationMismatch : ErrorCode := ⟨0x8B⟩
def batchPartialFailure : ErrorCode := ⟨0x8C⟩
def invalidFrame : ErrorCode := ⟨0x8D⟩
def crcMismatch : ErrorCode := ⟨0x8E⟩
def deserializationFailed : ErrorCode := ⟨0x8F⟩

/-- The enumerators, in the order of the header. -/
def enumerators : List ErrorCode :=
  [success, illegalFunction, illegalDataAddress, illegalDataValue, slaveDeviceFailure, acknowledge,
    slaveDeviceBusy, negativeAcknowledge, memoryParityError, gatewayPathUnavailable,
    gatewayTargetFailed, authenticationFailed, sessionExpired, hmacMismatch, pipelineOverflow,
    subscriptionLimitReached, payloadTooLarge, fragmentReassemblyFailed, transportDisconnected,
    timeoutExpired, typeCodecMismatch, unsupportedVersion, correlationMismatch, batchPartialFailure,
    invalidFrame, crcMismatch, deserializationFailed]

/-- The code survives the one-byte exception field: its value is `1` to `255`. -/
def FitsByte (e : ErrorCode) : Prop := 0 < e.value ∧ e.value < 256

instance (e : ErrorCode) : Decidable e.FitsByte := inferInstanceAs (Decidable (_ ∧ _))

theorem enumerators_fit : ∀ e ∈ enumerators, e ≠ success → e.FitsByte := by decide

end ErrorCode

/-- The category half of a `std::error_code`; handlers may bring their own. -/
inductive ErrorCategory
  | system
  | modbus
  | foreign (id : ℕ)
  deriving DecidableEq, Repr

/-- `std::error_code`. -/
structure StdErrorCode where
  value : ℤ
  category : ErrorCategory
  deriving DecidableEq, Repr

namespace StdErrorCode

/-- The default-constructed code. -/
def none : StdErrorCode := ⟨0, .system⟩

/-- `explicit operator bool`: the code is an error. -/
def isError (ec : StdErrorCode) : Bool := ec.value != 0

end StdErrorCode

def makeErrorCode (e : ErrorCode) : StdErrorCode := ⟨e.value, .modbus⟩

@[simp] theorem makeErrorCode_value (e : ErrorCode) : (makeErrorCode e).value = e.value := rfl

theorem makeErrorCode_injective {e e' : ErrorCode} (h : makeErrorCode e = makeErrorCode e') :
    e = e' := by
  cases e; cases e'
  simpa [makeErrorCode] using h

/-- `Result<T>`: a value or a `std::error_code`. -/
inductive Result (α : Type)
  | value (v : α)
  | failure (ec : StdErrorCode)
  deriving DecidableEq, Repr

namespace Result

variable {α β : Type}

/-- Construct a failed result from an `ErrorCode`. -/
def fail (e : ErrorCode) : Result α := .failure (makeErrorCode e)

def hasValue : Result α → Bool
  | .value _ => true
  | .failure _ => false

/-- `error()`: the default code when there is a value. -/
def error : Result α → StdErrorCode
  | .value _ => .none
  | .failure ec => ec

/-- `if (!r) return r.error();` followed by the use of `r.value()`. -/
def andThen (r : Result α) (f : α → Result β) : Result β :=
  match r with
  | .value v => f v
  | .failure ec => .failure ec

@[simp] theorem andThen_value (v : α) (f : α → Result β) : (value v).andThen f = f v := rfl

@[simp] theorem andThen_fail (e : ErrorCode) (f : α → Result β) :
    (fail e : Result α).andThen f = fail e := rfl

end Result

/-- `Result<void>`: success is a code of value zero. -/
structure VoidResult where
  ec : StdErrorCode
  deriving DecidableEq, Repr

namespace VoidResult

/-- `Result<void>{}`. -/
def ok : VoidResult := ⟨.none⟩

def fail (e : ErrorCode) : VoidResult := ⟨makeErrorCode e⟩

def hasValue (r : VoidResult) : Bool := !r.ec.isError

def error (r : VoidResult) : StdErrorCode := r.ec

theorem hasValue_iff (r : VoidResult) : r.hasValue = true ↔ r.ec.value = 0 := by
  simp [hasValue, StdErrorCode.isError]

end VoidResult

end ModbusPp

import ModbusPp.Foundation.Span
import ModbusPp.Core.Words
import ModbusPp.Core.Result
import ModbusPp.Core.FunctionCode
import ModbusPp.Core.Timestamp

/-! Protocol data units and their wire form (`pdu.hpp`, `pdu.cpp`). A standard
frame is a function code and data. An extended frame is

  `[0x6E] [version] [flags:2] [correlation id:2] [timestamp:8]? [ext fc] [length:2] [payload] [hmac:32]?`

with the two optional fields announced by flag bits. `deserialize` works on an
unchecked view, one definition per stage of the source function. -/

namespace ModbusPp

open Foundation

abbrev HMACDigest := Block UInt8 32

structure FrameHeader where
  version : UInt8 := 1
  flags : FrameFlag := .none
  correlationId : UInt16 := 0
  timestamp : Option Timestamp := none
  extFunctionCode : ExtendedFunctionCode := ⟨0⟩
  payloadLength : UInt16 := 0
  deriving DecidableEq

structure PDU where
  functionCode : FunctionCode
  extHeader : Option FrameHeader
  payload : List UInt8
  hmac : Option HMACDigest
  deriving DecidableEq

namespace PDU

def makeStandard (fc : FunctionCode) (data : List UInt8) : PDU := ⟨fc, none, data, none⟩

/-- The flag word `make_extended` stores. -/
def extendedFlags (header : FrameHeader) (hmac : Option HMACDigest) : FrameFlag :=
  let flags := if header.timestamp.isSome then header.flags ||| .hasTimestamp else header.flags
  if hmac.isSome then flags ||| .hasHMAC else flags

def makeExtended (header : FrameHeader) (payload : List UInt8)
    (hmac : Option HMACDigest := none) : PDU where
  functionCode := .extended
  extHeader := some { header with
    payloadLength := UInt16.ofNat payload.length
    flags := extendedFlags header hmac }
  payload := payload
  hmac := hmac

def isExtended (pdu : PDU) : Bool := pdu.extHeader.isSome

/-- `is_extended_frame`. -/
def isExtendedFrame (raw : Span UInt8) : Checked Bool := do
  if raw.size = 0 then return false
  return decide ((← raw.read 0) = FunctionCode.extended.byte) ||
    decide ((← raw.read 0) = FunctionCode.extendedStream.byte)

/-- The timestamp bytes, written only when both the flag and the value are there. -/
def timestampBytes (hdr : FrameHeader) : List UInt8 :=
  match hdr.flags.has .hasTimestamp, hdr.timestamp with
  | true, some ts => ts.serialize.toList
  | _, _ => []

/-- The digest bytes, written only when both the flag and the value are there. -/
def hmacBytes (hdr : FrameHeader) (hmac : Option HMACDigest) : List UInt8 :=
  match hdr.flags.has .hasHMAC, hmac with
  | true, some digest => digest.toList
  | _, _ => []

def serialize (pdu : PDU) : List UInt8 :=
  match pdu.extHeader with
  | none => pdu.functionCode.byte :: pdu.payload
  | some hdr =>
    [FunctionCode.extended.byte, hdr.version, hiByte hdr.flags.bits, loByte hdr.flags.bits,
      hiByte hdr.correlationId, loByte hdr.correlationId] ++
    timestampBytes hdr ++
    [hdr.extFunctionCode.byte, hiByte hdr.payloadLength, loByte hdr.payloadLength] ++
    pdu.payload ++
    hmacBytes hdr pdu.hmac

/-- `deserialize` from the optional digest on. -/
def deserializeHmac (raw : Span UInt8) (fc : FunctionCode) (hdr : FrameHeader)
    (payload : List UInt8) (offset : ℕ) : Checked (Result PDU) := do
  if hdr.flags.has .hasHMAC then
    if raw.size < offset + 32 then return .fail .invalidFrame
    let digest ← raw.copyN offset 32
    return .value ⟨fc, some hdr, payload, some digest⟩
  else
    return .value ⟨fc, some hdr, payload, none⟩

/-- `deserialize` from the extended function code on. -/
def deserializePayload (raw : Span UInt8) (fc : FunctionCode) (hdr : FrameHeader) (offset : ℕ) :
    Checked (Result PDU) := do
  if raw.size < offset + 3 then return .fail .invalidFrame
  let extFc ← raw.read offset
  let payloadLength := word (← raw.read (offset + 1)) (← raw.read (offset + 2))
  let hdr := { hdr with extFunctionCode := ⟨extFc⟩, payloadLength := payloadLength }
  let offset := offset + 3
  if raw.size < offset + payloadLength.toNat then return .fail .invalidFrame
  let payload ← raw.copy offset (offset + payloadLength.toNat)
  deserializeHmac raw fc hdr payload (offset + payloadLength.toNat)

/-- `deserialize` from the optional timestamp on. -/
def deserializeTimestamp (raw : Span UInt8) (fc : FunctionCode) (hdr : FrameHeader) (offset : ℕ) :
    Checked (Result PDU) := do
  if hdr.flags.has .hasTimestamp then
    if raw.size < offset + 8 then return .fail .invalidFrame
    let ts ← raw.copyN offset 8
    deserializePayload raw fc { hdr with timestamp := some (.deserialize ts) } (offset + 8)
  else
    deserializePayload raw fc hdr offset

def deserialize (raw : Span UInt8) : Checked (Result PDU) := do
  if raw.size < 1 then return .fail .invalidFrame
  let fc : FunctionCode := ⟨← raw.read 0⟩
  if ¬fc.IsExtended then
    let data ← raw.copy 1 raw.size
    return .value (makeStandard fc data)
  -- FC(1) + Ver(1) + Flags(2) + CorrID(2) + ExtFC(1) + PayloadLen(2)
  if raw.size < 9 then return .fail .invalidFrame
  let version ← raw.read 1
  if version ≠ 1 then return .fail .unsupportedVersion
  let flags : FrameFlag := ⟨word (← raw.read 2) (← raw.read 3)⟩
  let correlationId := word (← raw.read 4) (← raw.read 5)
  deserializeTimestamp raw fc { version, flags, correlationId } 6

end PDU

end ModbusPp

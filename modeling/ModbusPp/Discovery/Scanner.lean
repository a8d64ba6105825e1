import ModbusPp.Foundation.ByteLoop
import ModbusPp.PubSub.Publisher
import ModbusPp.Transport.FrameCodec

/-! The scanner (`scanner.cpp`) over any transport and clock. A probe is two exchanges,
and in each the first frame that comes in is taken for the answer: of the first one only
its arrival counts, and in the second neither the unit nor the transaction id is looked
at. -/

namespace ModbusPp

open Foundation

/-- The capability bits of a device (`device_info.hpp`). -/
structure Capability where
  bits : UInt32
  deriving DecidableEq, Repr

/-- What a probe finds out about a device. -/
structure DeviceInfo where
  unitId : UInt8 := 0
  supportsExtended : Bool := false
  extensionVersion : UInt8 := 0
  discoveredAt : Timestamp
  capabilities : Capability := ⟨0⟩
  deriving DecidableEq

structure ScannerConfig where
  scanTimeout : ℕ := 500
  rangeStart : UInt8 := 1
  rangeEnd : UInt8 := 247

/-- The addresses that `scan` goes through, in its order. The loop is left at the end of
the range before its counter can overflow. -/
def ScannerConfig.units (config : ScannerConfig) : List UInt8 :=
  bytesUpTo config.rangeStart config.rangeEnd

theorem ScannerConfig.mem_units {config : ScannerConfig} {unitId : UInt8} :
    unitId ∈ config.units ↔ config.rangeStart ≤ unitId ∧ unitId ≤ config.rangeEnd := mem_bytesUpTo

namespace Scanner

variable {τ : Type} (W : World τ)

/-- The first frame of a probe: read register 0. -/
def probeFrame (unitId : UInt8) : List UInt8 :=
  FrameCodec.wrapTcp unitId (.makeStandard .readHoldingRegisters [0x00, 0x00, 0x00, 0x01])
    unitId.toUInt16

/-- The second frame of a probe. -/
def discoverFrame (unitId : UInt8) : List UInt8 :=
  FrameCodec.wrapTcp unitId (.makeExtended { extFunctionCode := .discover } [])
    (unitId.toUInt16 + 256)

def capabilitiesOf (payload : List UInt8) : Capability :=
  match payload with
  | b₀ :: b₁ :: b₂ :: b₃ :: _ =>
    ⟨(b₀.toUInt32 <<< 24) ||| (b₁.toUInt32 <<< 16) ||| (b₂.toUInt32 <<< 8) ||| b₃.toUInt32⟩
  | _ => ⟨0⟩

/-- What a probe makes of the answer to its second frame. -/
def detectExtended (info : DeviceInfo) (bytes : List UInt8) : Checked DeviceInfo := do
  match ← FrameCodec.unwrapTcp (.ofList bytes) with
  | .failure _ => return info
  | .value (_, respPdu, _) =>
    if respPdu.extHeader.any (·.extFunctionCode = .discoverResponse) then
      return { info with
        supportsExtended := true
        extensionVersion := 1
        capabilities := capabilitiesOf respPdu.payload }
    else return info

def probe (config : ScannerConfig) (unitId : UInt8) (net : τ) :
    Checked (Result DeviceInfo × τ) := do
  let (sendResult, net) ← W.send (probeFrame unitId) net
  if !sendResult.hasValue then return (.failure sendResult.error, net)
  let (recvResult, net) ← W.receive config.scanTimeout net
  match recvResult with
  | .failure ec => return (.failure ec, net)
  | .value _ =>
    let (discoveredAt, net) := W.now net
    let info : DeviceInfo := { unitId, discoveredAt }
    let (extSend, net) ← W.send (discoverFrame unitId) net
    if !extSend.hasValue then return (.value info, net)
    let (extRecv, net) ← W.receive config.scanTimeout net
    match extRecv with
    | .failure _ => return (.value info, net)
    | .value bytes => return (.value (← detectExtended info bytes), net)

/-- The device that a probe found, if it did. -/
def found : Result DeviceInfo → Option DeviceInfo
  | .value info => some info
  | .failure _ => none

def scan (config : ScannerConfig) (net : τ) : Checked (List DeviceInfo × τ) := do
  let (results, net) ← runAll (probe W config) config.units net
  return (results.filterMap found, net)

/-- A frame was sent, and the next receive returned `answer`. -/
def Asked (timeout : ℕ) (frame : List UInt8) (net : τ) (answer : List UInt8) (net' : τ) : Prop :=
  ∃ sendResult net₁, W.send frame net = .ok (sendResult, net₁) ∧ sendResult.hasValue = true ∧
    W.receive timeout net₁ = .ok (.value answer, net')

variable {W} {config : ScannerConfig} {unitId : UInt8} {net net' : τ} {result : Result DeviceInfo}

/-- Only the flags of a device depend on the second answer. -/
theorem detectExtended_unitId {info info' : DeviceInfo} {bytes : List UInt8}
    (h : detectExtended info bytes = .ok info') : info'.unitId = info.unitId := by
  obtain ⟨unwrapped, -, h⟩ := bind_eq_ok.mp h
  cases unwrapped with
  | failure ec =>
    cases h
    rfl
  | value decoded =>
    dsimp only at h
    split_ifs at h
    · cases h
      rfl
    · cases h
      rfl

/-- What a probe does to the transport, step by step, and what it takes to find a device
and its extended capabilities. -/
theorem probe_cases (le : τ → τ → Prop) (htrans : ∀ n₁ n₂ n₃, le n₁ n₂ → le n₂ n₃ → le n₁ n₃)
    (hsend : ∀ frame n o n', frame = probeFrame unitId ∨ frame = discoverFrame unitId →
      W.send frame n = .ok (o, n') → le n n')
    (hreceive : ∀ timeout n o n', W.receive timeout n = .ok (o, n') → le n n')
    (hnow : ∀ n, le n (W.now n).2) (h : probe W config unitId net = .ok (result, net')) :
    le net net' ∧ ∀ info, result = .value info → info.unitId = unitId ∧
      ∃ answer net₁, Asked W config.scanTimeout (probeFrame unitId) net answer net₁ ∧ le net₁ net' ∧
        (info.supportsExtended = true →
          ∃ answer', Asked W config.scanTimeout (discoverFrame unitId) (W.now net₁).2
            answer' net') := by
  obtain ⟨⟨sendResult, net₁⟩, hsent, h⟩ := bind_eq_ok.mp h
  have hle₁ := hsend _ _ _ _ (.inl rfl) hsent
  by_cases hvalue : sendResult.hasValue = true
  · simp only [hvalue, Bool.not_true, Bool.false_eq_true, if_false] at h
    obtain ⟨⟨recvResult, net₂⟩, hreceived, h⟩ := bind_eq_ok.mp h
    have hle₂ := htrans _ _ _ hle₁ (hreceive _ _ _ _ hreceived)
    cases recvResult with
    | failure ec =>
      cases h
      exact ⟨hle₂, fun info hinfo => by cases hinfo⟩
    | value answer =>
      obtain ⟨⟨extSend, net₃⟩, hextSent, h⟩ := bind_eq_ok.mp h
      have hasked : Asked W config.scanTimeout (probeFrame unitId) net answer net₂ :=
        ⟨sendResult, net₁, hsent, hvalue, hreceived⟩
      have hle₃ := htrans _ _ _ (hnow net₂) (hsend _ _ _ _ (.inr rfl) hextSent)
      by_cases hextValue : extSend.hasValue = true
      · simp only [hextValue, Bool.not_true, Bool.false_eq_true, if_false] at h
        obtain ⟨⟨extRecv, net₄⟩, hextReceived, h⟩ := bind_eq_ok.mp h
        have hle₄ := htrans _ _ _ hle₃ (hreceive _ _ _ _ hextReceived)
        cases extRecv with
        | failure ec =>
          cases h
          refine ⟨htrans _ _ _ hle₂ hle₄, ?_⟩
          rintro info ⟨⟩
          exact ⟨rfl, answer, net₂, hasked, hle₄, fun hext => by cases hext⟩
        | value answer' =>
          obtain ⟨info', hdetect, h⟩ := bind_eq_ok.mp h
          cases h
          refine ⟨htrans _ _ _ hle₂ hle₄, ?_⟩
          rintro info ⟨⟩
          exact ⟨detectExtended_unitId hdetect, answer, net₂, hasked, hle₄,
            fun _ => ⟨answer', extSend, net₃, hextSent, hextValue, hextReceived⟩⟩
      · rw [Bool.not_eq_true] at hextValue
        simp only [hextValue, Bool.not_false, if_true] at h
        cases h
        refine ⟨htrans _ _ _ hle₂ hle₃, ?_⟩
        rintro info ⟨⟩
        exact ⟨rfl, answer, net₂, hasked, hle₃, fun hext => by cases hext⟩
  · rw [Bool.not_eq_true] at hvalue
    simp only [hvalue, Bool.not_false, if_true] at h
    cases h
    exact ⟨hle₁, fun info hinfo => by cases hinfo⟩

end Scanner

end ModbusPp

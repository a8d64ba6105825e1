import ModbusPp.Core.PduGrammar

/-! ADU framing (`frame_codec.cpp`). A TCP frame is the MBAP header
`[transaction:2] [protocol:2] [length:2] [unit]` and the PDU; an RTU frame is the
unit, the PDU and a CRC16, low byte first. The specification lemmas give each
unwrapper as a list computation wherever it stays inside its frame. -/

namespace ModbusPp.FrameCodec

open Foundation

/-! ### TCP (MBAP) framing -/

/-- The length field holds 16 bits of the true length. -/
def wrapTcp (unitId : UInt8) (pdu : PDU) (transactionId : UInt16) : List UInt8 :=
  let pduBytes := pdu.serialize
  let length := UInt16.ofNat (1 + pduBytes.length)
  [hiByte transactionId, loByte transactionId, 0x00, 0x00, hiByte length, loByte length, unitId] ++
    pduBytes

/-- `static_cast<std::size_t>(length - 1)`: the subtraction is done in `int`. -/
def pduLength (length : UInt16) : ℕ := (((length.toNat : ℤ) - 1) % 2 ^ 64).toNat

/-- `unwrap_tcp` up to the call of `PDU::deserialize`: the transaction id, the
unit id and the view that is passed on. -/
def unwrapHeader (frame : Span UInt8) : Checked (Result (UInt16 × UInt8 × Span UInt8)) := do
  if frame.size < 8 then return .fail .invalidFrame
  let transactionId := word (← frame.read 0) (← frame.read 1)
  if (← frame.read 2) ≠ 0x00 then return .fail .invalidFrame
  if (← frame.read 3) ≠ 0x00 then return .fail .invalidFrame
  let length := word (← frame.read 4) (← frame.read 5)
  if frame.size < 6 + length.toNat then return .fail .invalidFrame
  let unitId ← frame.read 6
  return .value (transactionId, unitId, frame.sub 7 (pduLength length))

def unwrapTcp (frame : Span UInt8) : Checked (Result (UInt8 × PDU × UInt16)) := do
  match ← unwrapHeader frame with
  | .failure ec => return .failure ec
  | .value (transactionId, unitId, raw) =>
    match ← PDU.deserialize raw with
    | .failure ec => return .failure ec
    | .value pdu => return .value (unitId, pdu, transactionId)

/-! ### RTU framing -/

/-- One round of the inner loop of `crc16`. -/
def crcBit (crc : UInt16) :
    UInt16 := if crc &&& 0x0001 ≠ 0 then (crc >>> 1) ^^^ 0xA001 else crc >>> 1

/-- One round of the outer loop of `crc16`. -/
def crcByte (crc : UInt16) (b : UInt8) : UInt16 := crcBit^[8] (crc ^^^ b.toUInt16)

def crc16 (data : List UInt8) : UInt16 := data.foldl crcByte 0xFFFF

def wrapRtu (unitId : UInt8) (pdu : PDU) : List UInt8 :=
  let frame := unitId :: pdu.serialize
  let crc := crc16 frame
  frame ++ [loByte crc, hiByte crc]

def unwrapRtu (frame : Span UInt8) : Checked (Result (UInt8 × PDU)) := do
  if frame.size < 4 then return .fail .invalidFrame
  let dataLen := frame.size - 2
  let expectedCrc := crc16 (← frame.copy 0 dataLen)
  let lo ← frame.read dataLen
  let hi ← frame.read (dataLen + 1)
  if expectedCrc ≠ word hi lo then return .fail .crcMismatch
  let unitId ← frame.read 0
  match ← PDU.deserialize (frame.sub 1 (dataLen - 1)) with
  | .failure ec => return .failure ec
  | .value pdu => return .value (unitId, pdu)

/-! ### Unwrapping as a list computation -/

/-- The MBAP length field of a received frame. -/
def lengthField (frame : List UInt8) : UInt16 := word (frame.getD 4 0) (frame.getD 5 0)

/-- The checks of `unwrap_tcp` on the header. -/
def HeaderOk (frame : List UInt8) : Prop :=
  8 ≤ frame.length ∧ frame[2]? = some 0 ∧ frame[3]? = some 0 ∧
  6 + (lengthField frame).toNat ≤ frame.length

instance (frame : List UInt8) : Decidable (HeaderOk frame) := inferInstanceAs (Decidable (_ ∧ _))

/-- The bytes from index `7` up to the end the length field announces. -/
def pduSlice (frame : List UInt8) : List UInt8 :=
  (frame.drop 7).take ((lengthField frame).toNat - 1)

theorem pduLength_of_ne_zero {length : UInt16} (h : length ≠ 0) :
    pduLength length = length.toNat - 1 := by
  have hpos : length.toNat ≠ 0 := fun h0 => h (UInt16.toNat_inj.mp h0)
  have hlt := length.toNat_lt
  rw [pduLength, Int.emod_eq_of_lt (by omega) (by omega)]
  omega

theorem pduLength_zero : pduLength 0 = 2 ^ 64 - 1 := by decide

/-- The header checks of the source decide `HeaderOk` without leaving the frame. -/
theorem unwrapHeader_eq (frame : List UInt8) :
    unwrapHeader (.ofList frame) =
      .ok (if HeaderOk frame then
        .value (word (frame.getD 0 0) (frame.getD 1 0), frame.getD 6 0,
          (Span.ofList frame).sub 7 (pduLength (lengthField frame)))
      else .fail .invalidFrame) := by
  have h := Span.views_ofList frame
  have hsize := h.size_eq
  rcases Nat.lt_or_ge frame.length 8 with hlen | hlen
  · have hno : ¬HeaderOk frame := fun hok => by have := hok.1; omega
    simp [unwrapHeader, hsize, hlen, hno]
  match frame, hlen with
  | t₁ :: t₀ :: p₁ :: p₀ :: l₁ :: l₀ :: u :: f :: rest, hlen =>
    have r₀ := h.read (i := 0) rfl
    have r₁ := h.read (i := 1) rfl
    have r₂ := h.read (i := 2) rfl
    have r₃ := h.read (i := 3) rfl
    have r₄ := h.read (i := 4) rfl
    have r₅ := h.read (i := 5) rfl
    have r₆ := h.read (i := 6) rfl
    have hfield : lengthField (t₁ :: t₀ :: p₁ :: p₀ :: l₁ :: l₀ :: u :: f :: rest) = word l₁ l₀ :=
      rfl
    simp only [unwrapHeader, hsize, Nat.not_lt.mpr hlen, if_false, r₀, r₁, r₂, r₃, r₄, r₅,
      r₆, ok_bind, pure_eq_ok, HeaderOk, hfield, hlen, true_and, List.getElem?_cons_succ,
      List.getElem?_cons_zero, Option.some.injEq]
    by_cases hp₁ : p₁ = 0
    swap
    · simp [hp₁]
    by_cases hp₀ : p₀ = 0
    swap
    · simp [hp₁, hp₀]
    subst hp₁ hp₀
    rcases Nat.lt_or_ge (t₁ :: t₀ :: 0 :: 0 :: l₁ :: l₀ :: u :: f ::
      rest).length (6 + (word l₁ l₀).toNat) with hL | hL
    · simp only [ne_eq, not_true, if_false, true_and, hL, if_true, Nat.not_le.mpr hL]
    · simp only [ne_eq, not_true, if_false, true_and, Nat.not_lt.mpr hL, hL, if_true]
      rfl

/-- With a non-zero length field the unwrapper stays inside the frame. -/
theorem unwrapTcp_eq {frame : List UInt8} (hlen : HeaderOk frame → lengthField frame ≠ 0) :
    unwrapTcp (.ofList frame) =
      .ok (if HeaderOk frame then
        (PDU.parse (pduSlice frame)).andThen fun pdu =>
          .value (frame.getD 6 0, pdu, word (frame.getD 0 0) (frame.getD 1 0))
      else .fail .invalidFrame) := by
  rw [unwrapTcp, unwrapHeader_eq, ok_bind]
  split_ifs with hok
  · have hpos : (lengthField frame).toNat ≠ 0 := fun h0 => hlen hok (UInt16.toNat_inj.mp h0)
    have hview := (Span.views_ofList frame).sub (i := 7) (n := (lengthField frame).toNat - 1)
      (by have := hok.2.2.2; omega)
    simp only [pduLength_of_ne_zero (hlen hok), PDU.deserialize_eq hview, ok_bind, pduSlice]
    cases PDU.parse ((frame.drop 7).take ((lengthField frame).toNat - 1)) <;> rfl
  · rfl

/-- What a frame that unwraps has been taken for. -/
theorem unwrapTcp_value {frame : List UInt8} {unitId : UInt8} {pdu : PDU} {transactionId : UInt16}
    (h : unwrapTcp (.ofList frame) = .ok (.value (unitId, pdu, transactionId))) :
    unitId = frame.getD 6 0 ∧
      PDU.deserialize ((Span.ofList frame).sub 7 (pduLength (lengthField frame))) =
        .ok (.value pdu) := by
  rw [unwrapTcp, unwrapHeader_eq, ok_bind] at h
  split_ifs at h
  · obtain ⟨decoded, hdecode, h⟩ := bind_eq_ok.mp h
    cases decoded with
    | failure ec => cases h
    | value pdu' =>
      cases h
      exact ⟨rfl, hdecode⟩
  · cases h

theorem serialize_length_pos (pdu : PDU) : 0 < pdu.serialize.length := by
  unfold PDU.serialize
  split <;> simp

theorem length_wrapTcp (unitId : UInt8) (pdu : PDU) (transactionId : UInt16) :
    (wrapTcp unitId pdu transactionId).length = 7 + pdu.serialize.length := by
  simp [wrapTcp]
  omega

/-- The length field of a built frame. -/
theorem lengthField_wrapTcp (unitId : UInt8) (pdu : PDU) (transactionId : UInt16) :
    lengthField (wrapTcp unitId pdu transactionId) = UInt16.ofNat (1 + pdu.serialize.length) := by
  simp [lengthField, wrapTcp]

/-- Unwrapping a built frame reads as much of the PDU as the 16-bit length field
admits. -/
theorem unwrapTcp_wrapTcp (unitId : UInt8) (pdu : PDU) (transactionId : UInt16)
    (hlen : (1 + pdu.serialize.length) % 65536 ≠ 0) :
    unwrapTcp (.ofList (wrapTcp unitId pdu transactionId)) =
      .ok ((PDU.parse (pdu.serialize.take ((1 + pdu.serialize.length) % 65536 - 1))).andThen
        fun decoded => .value (unitId, decoded, transactionId)) := by
  have hfield := lengthField_wrapTcp unitId pdu transactionId
  have htoNat :
      (UInt16.ofNat (1 + pdu.serialize.length)).toNat = (1 + pdu.serialize.length) % 65536 :=
    UInt16.toNat_ofNat'
  have hok : HeaderOk (wrapTcp unitId pdu transactionId) := by
    have hpos := serialize_length_pos pdu
    refine ⟨by rw [length_wrapTcp]; omega, by simp [wrapTcp], by simp [wrapTcp], ?_⟩
    rw [hfield, htoNat, length_wrapTcp]
    have := Nat.mod_le (1 + pdu.serialize.length) 65536
    omega
  have hne : lengthField (wrapTcp unitId pdu transactionId) ≠ 0 := by
    intro h0
    rw [hfield] at h0
    rw [h0] at htoNat
    exact hlen htoNat.symm
  rw [unwrapTcp_eq (fun _ => hne), if_pos hok, pduSlice, hfield, htoNat]
  simp [wrapTcp]

/-- Of a standard PDU as much of the data is read back as the length field covers. -/
theorem unwrapTcp_standard {fc : FunctionCode} (hfc : ¬fc.IsExtended)
    (unitId : UInt8) (data : List UInt8) (transactionId : UInt16)
    (hlen : 2 ≤ (2 + data.length) % 65536) :
    unwrapTcp (.ofList (wrapTcp unitId (.makeStandard fc data) transactionId)) =
      .ok (.value (unitId, .makeStandard fc (data.take ((2 + data.length) % 65536 - 2)),
        transactionId)) := by
  have hser : (PDU.makeStandard fc data).serialize = fc.byte :: data := rfl
  have hsum : 1 + (PDU.makeStandard fc data).serialize.length = 2 + data.length := by
    rw [hser, List.length_cons]
    omega
  rw [unwrapTcp_wrapTcp _ _ _ (by omega), hsum, hser,
    show (2 + data.length) % 65536 - 1 = ((2 + data.length) % 65536 - 2) + 1 by
      omega, List.take_succ_cons]
  simp [PDU.parse, hfc]

theorem unwrapTcp_standard_of_lt {fc : FunctionCode} (hfc : ¬fc.IsExtended)
    (unitId : UInt8) {data : List UInt8} (transactionId : UInt16) (hlen : data.length < 65534) :
    unwrapTcp (.ofList (wrapTcp unitId (.makeStandard fc data) transactionId)) =
      .ok (.value (unitId, .makeStandard fc data, transactionId)) := by
  rw [unwrapTcp_standard hfc _ _ _ (by omega), List.take_of_length_le (by omega)]

/-- When the length field covers no byte of the PDU the frame is rejected. -/
theorem unwrapTcp_standard_of_eq_one (fc : FunctionCode) (unitId : UInt8) {data : List UInt8}
    (transactionId : UInt16) (hlen : (2 + data.length) % 65536 = 1) :
    unwrapTcp (.ofList (wrapTcp unitId (.makeStandard fc data) transactionId)) =
      .ok (.fail .invalidFrame) := by
  have hsum : 1 + (PDU.makeStandard fc data).serialize.length = 2 + data.length := by
    rw [show (PDU.makeStandard fc data).serialize = fc.byte :: data from rfl, List.length_cons]
    omega
  rw [unwrapTcp_wrapTcp _ _ _ (by omega), hsum, hlen]
  rfl

/-- The last two bytes of an RTU frame are compared with the CRC of the others; the
first of these names the unit and the rest is the PDU. -/
theorem unwrapRtu_eq (unitId : UInt8) {body : List UInt8} (hbody : 0 < body.length)
    (lo hi : UInt8) :
    unwrapRtu (.ofList (unitId :: body ++ [lo, hi])) =
      .ok (if crc16 (unitId :: body) ≠ word hi lo then .fail .crcMismatch
        else (PDU.parse body).andThen fun decoded => .value (unitId, decoded)) := by
  have h := Span.views_ofList (unitId :: body ++ [lo, hi])
  have hlen : (unitId :: body ++ [lo, hi]).length = body.length + 3 := by simp
  have hsize : (Span.ofList (unitId :: body ++ [lo, hi])).size = body.length + 3 :=
    h.size_eq.trans hlen
  have hdata := h.copy (i := 0) (j := body.length + 1) (by omega) (by omega)
  have hlo := h.read (i := body.length + 1) (x := lo) (by simp)
  have hhi := h.read (i := body.length + 1 + 1) (x := hi) (by simp)
  have hunit := h.read (i := 0) (x := unitId) (by simp)
  have hpdu := h.sub (i := 1) (n := body.length) (by omega)
  have hslice : ((unitId :: body ++ [lo, hi]).drop 1).take body.length = body := by simp
  have hall : ((unitId :: body ++ [lo, hi]).drop 0).take (body.length + 1 - 0) = unitId ::
    body := by simp
  rw [hslice] at hpdu
  rw [hall] at hdata
  simp only [unwrapRtu, hsize, show body.length + 3 - 2 = body.length + 1 by omega,
    show ¬(body.length + 3 < 4) by omega, if_false, hdata, hlo, hhi, ok_bind]
  by_cases hcrc : crc16 (unitId :: body) ≠ word hi lo
  · rw [if_pos hcrc, if_pos hcrc, pure_eq_ok]
  · rw [if_neg hcrc, if_neg hcrc, hunit, ok_bind, Nat.add_sub_cancel, PDU.deserialize_eq hpdu]
    cases PDU.parse body <;> rfl

/-- An RTU frame built here passes its check and is read back to its PDU. -/
theorem unwrapRtu_wrapRtu (unitId : UInt8) (pdu : PDU) :
    unwrapRtu (.ofList (wrapRtu unitId pdu)) =
      .ok ((PDU.parse pdu.serialize).andThen fun decoded => .value (unitId, decoded)) := by
  have hframe : wrapRtu unitId pdu = unitId :: pdu.serialize ++
    [loByte (crc16 (unitId :: pdu.serialize)), hiByte (crc16 (unitId :: pdu.serialize))] := rfl
  rw [hframe, unwrapRtu_eq unitId (serialize_length_pos pdu),
    if_neg (not_not.mpr (word_bytes _).symm)]

end ModbusPp.FrameCodec

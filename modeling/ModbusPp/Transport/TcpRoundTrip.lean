import ModbusPp.Core.PduPrefix
import ModbusPp.Transport.FrameCodec

/-! The round trip through TCP framing. The length field holds 16 bits of one more
than the size of the PDU, so a PDU of more than 65534 bytes is cut on the way in.
One size escapes: at 65535 the field wraps to zero, the decoder is handed a view
of nearly all of memory, and an extended PDU tells it where to stop. -/

namespace ModbusPp.FrameCodec

open Foundation PDU

/-- The frame size is a `size_t`. -/
def Fits (unitId : UInt8) (pdu : PDU) (transactionId : UInt16) : Prop :=
  (wrapTcp unitId pdu transactionId).length < 2 ^ 64

variable {pdu : PDU}

theorem length_extended_le {hdr : FrameHeader} (hhdr : pdu.extHeader = some hdr)
    (h : Coherent pdu hdr) :
    pdu.serialize.length ≤ 65584 := by
  have hlt := hdr.payloadLength.toNat_lt
  have hts : (timestampBytes hdr).length ≤ 8 := by
    unfold timestampBytes
    split <;> simp
  have hmac : (hmacBytes hdr pdu.hmac).length ≤ 32 := by
    unfold hmacBytes
    split <;> simp
  rw [serialize_extended hhdr]
  simp only [List.length_cons, List.length_append, List.length_nil, h.length_field]
  omega

/-- An extended PDU without optional fields survives serialisation. -/
theorem roundTrips_plain (extFunctionCode : ExtendedFunctionCode)
    {payload : List UInt8} (hlen : payload.length ≤ 65535) :
    RoundTrips (makeExtended { extFunctionCode } payload) := by
  have htimestamp :
    FrameFlag.none.has .hasTimestamp = true → (none : Option Timestamp).isSome = true := by decide
  have hhmac :
    FrameFlag.none.has .hasHMAC = true → (none : Option HMACDigest).isSome = true := by decide
  rw [RoundTrips, PDU.deserialize_ofList,
    PDU.parse_serialize (makeExtended_onWire rfl htimestamp hhmac hlen)
    (show FunctionCode.extended ≠ .extendedStream by decide)]

/-- Up to the size the length field can tell, what survives serialisation survives
the frame. -/
theorem unwrapTcp_of_le (unitId : UInt8) (transactionId : UInt16) (h : RoundTrips pdu)
    (hle : pdu.serialize.length ≤ 65534) :
    unwrapTcp (.ofList (wrapTcp unitId pdu transactionId)) =
      .ok (.value (unitId, pdu, transactionId)) := by
  rw [unwrapTcp_wrapTcp _ _ _ (by omega), Nat.mod_eq_of_lt (by omega), Nat.add_sub_cancel_left,
    List.take_length, h.parse, Result.andThen_value]

theorem unwrapHeader_wrapped (unitId : UInt8) (pdu : PDU) (transactionId : UInt16)
    (hlen : (1 + pdu.serialize.length) % 65536 = 0) :
    unwrapHeader (.ofList (wrapTcp unitId pdu transactionId)) =
      .ok (.value (transactionId, unitId,
        (Span.ofList (wrapTcp unitId pdu transactionId)).sub 7 (2 ^ 64 - 1))) := by
  have hzero : lengthField (wrapTcp unitId pdu transactionId) = 0 := by
    rw [lengthField_wrapTcp, ← UInt16.toNat_inj, UInt16.toNat_ofNat']
    exact hlen
  have hok : HeaderOk (wrapTcp unitId pdu transactionId) := by
    have hpos := serialize_length_pos pdu
    refine ⟨by rw [length_wrapTcp]; omega, by simp [wrapTcp], by simp [wrapTcp], ?_⟩
    rw [hzero, length_wrapTcp, UInt16.toNat_zero]
    omega
  rw [unwrapHeader_eq, if_pos hok, hzero, pduLength_zero]
  simp [wrapTcp]

theorem views_wrapTcp (unitId : UInt8) (pdu : PDU) (transactionId : UInt16) :
    ((Span.ofList (wrapTcp unitId pdu transactionId)).sub 7 pdu.serialize.length).Views
      pdu.serialize := by
  have h := (Span.views_ofList (wrapTcp unitId pdu transactionId)).sub
    (i := 7) (n := pdu.serialize.length)
    (by rw [length_wrapTcp])
  have hslice :
      ((wrapTcp unitId pdu transactionId).drop 7).take pdu.serialize.length = pdu.serialize := by
    simp [wrapTcp]
  rwa [hslice] at h

theorem unwrapTcp_wrapped_extended (unitId : UInt8) (transactionId : UInt16) (h : RoundTrips pdu)
    (hext : pdu.isExtended = true) (hlen : pdu.serialize.length = 65535) :
    unwrapTcp (.ofList (wrapTcp unitId pdu transactionId)) =
      .ok (.value (unitId, pdu, transactionId)) := by
  have hview := PDU.deserialize_eq (views_wrapTcp unitId pdu transactionId)
  rw [h.parse] at hview
  have hlonger :
    Longer ((Span.ofList (wrapTcp unitId pdu transactionId)).sub 7 pdu.serialize.length)
      ((Span.ofList (wrapTcp unitId pdu transactionId)).sub 7 (2 ^ 64 - 1)) :=
    ⟨rfl, rfl, by simp only [Span.sub, hlen]; omega⟩
  rw [unwrapTcp, unwrapHeader_wrapped unitId pdu transactionId (by rw [hlen]), ok_bind]
  simp only [hlonger.deserialize hview hext, ok_bind, pure_eq_ok]

theorem unwrapTcp_wrapped_standard (unitId : UInt8) (transactionId : UInt16)
    (hfc : ¬pdu.functionCode.IsExtended) (hpdu : pdu = makeStandard pdu.functionCode pdu.payload)
    (hlen : (1 + pdu.serialize.length) % 65536 = 0) (hfits : Fits unitId pdu transactionId) :
    unwrapTcp (.ofList (wrapTcp unitId pdu transactionId)) = .error .outOfRange := by
  have hser : pdu.serialize = pdu.functionCode.byte :: pdu.payload := by rw [hpdu]; rfl
  have hread : ((Span.ofList (wrapTcp unitId pdu transactionId)).sub 7 (2 ^ 64 - 1)).read 0 =
      .ok pdu.functionCode.byte :=
    (views_wrapTcp unitId pdu transactionId).read (i := 0) (by rw [hser]; rfl)
  have hcopy :
    ((Span.ofList (wrapTcp unitId pdu transactionId)).sub 7 (2 ^ 64 - 1)).copy 1 (2 ^ 64 - 1) =
      .error .outOfRange := by
    rw [Fits] at hfits
    rw [Span.copy, if_neg]
    rintro ⟨-, hle⟩
    simp only [Span.sub, Span.ofList] at hle
    omega
  have hdecode :
    PDU.deserialize ((Span.ofList (wrapTcp unitId pdu transactionId)).sub 7 (2 ^ 64 - 1)) =
      .error .outOfRange := by
    have hsize :
      ((Span.ofList (wrapTcp unitId pdu transactionId)).sub 7 (2 ^ 64 - 1)).size = 2 ^ 64 - 1 := rfl
    simp only [PDU.deserialize, hread, ok_bind, hsize, hcopy, error_bind, if_pos hfc]
    decide
  rw [unwrapTcp, unwrapHeader_wrapped unitId pdu transactionId hlen, ok_bind]
  simp only [hdecode, error_bind]

theorem unwrapTcp_cut (unitId : UInt8) (transactionId : UInt16) (h : RoundTrips pdu)
    (hlong : 65534 < pdu.serialize.length) (hlen : (1 + pdu.serialize.length) % 65536 ≠ 0) :
    unwrapTcp (.ofList (wrapTcp unitId pdu transactionId)) ≠ .ok
      (.value (unitId, pdu, transactionId)) := by
  intro hval
  rw [unwrapTcp_wrapTcp _ _ _ hlen] at hval
  cases hparse : PDU.parse (pdu.serialize.take ((1 + pdu.serialize.length) % 65536 - 1)) with
  | failure ec =>
    rw [hparse] at hval
    simp [Result.andThen] at hval
  | value decoded =>
    rw [hparse, Result.andThen_value, Except.ok.injEq, Result.value.injEq, Prod.mk.injEq,
      Prod.mk.injEq] at hval
    obtain ⟨-, rfl, -⟩ := hval
    have hle := h.length_le_of_take hparse
    omega

/-- Every PDU that survives serialisation survives the TCP frame exactly when its
length field does not wrap, the one harmless wrap apart. -/
theorem tcp_roundTrip_iff (unitId : UInt8) (pdu : PDU) (transactionId : UInt16) (h : RoundTrips pdu)
    (hfits : Fits unitId pdu transactionId) :
    unwrapTcp (.ofList (wrapTcp unitId pdu transactionId)) =
      .ok (.value (unitId, pdu, transactionId)) ↔
      pdu.serialize.length ≤ 65534 ∨ pdu.isExtended = true ∧ pdu.serialize.length = 65535 := by
  constructor
  · intro hval
    by_contra hno
    rw [not_or, Nat.not_le] at hno
    by_cases hlen : (1 + pdu.serialize.length) % 65536 = 0
    · obtain ⟨-, hfc, hpdu⟩ | ⟨hdr, hhdr, -, hcoh⟩ := h.cases
      · rw [unwrapTcp_wrapped_standard unitId transactionId hfc hpdu hlen hfits] at hval
        contradiction
      · have hmax := length_extended_le hhdr hcoh
        exact hno.2 ⟨by rw [isExtended, hhdr]; rfl, by omega⟩
    · exact unwrapTcp_cut unitId transactionId h hno.1 hlen hval
  · rintro (hle | ⟨hext, hlen⟩)
    · exact unwrapTcp_of_le unitId transactionId h hle
    · exact unwrapTcp_wrapped_extended unitId transactionId h hext hlen

theorem tcp_roundTrip_read :
    unwrapTcp (.ofList (wrapTcp 1 (.makeStandard .readHoldingRegisters [0, 0, 0, 1]) 7)) =
      .ok (.value (1, .makeStandard .readHoldingRegisters [0, 0, 0, 1], 7)) :=
  (tcp_roundTrip_iff 1 (.makeStandard .readHoldingRegisters [0, 0, 0, 1])
    7 (by rw [RoundTrips]; decide)
    (by rw [Fits]; decide)).mpr (Or.inl (by decide))

/-- An extended PDU with a payload of 65527 zeros survives serialisation and is
lost in the frame. -/
theorem tcp_loses_large_payload :
    ¬∀ (unitId : UInt8) (pdu : PDU) (transactionId : UInt16), RoundTrips pdu →
      unwrapTcp (.ofList (wrapTcp unitId pdu transactionId)) =
        .ok (.value (unitId, pdu, transactionId)) := by
  intro hall
  have hround : RoundTrips (makeExtended {} (List.replicate 65527 0)) :=
    roundTrips_plain _ (by rw [List.length_replicate]; decide)
  have hlength : (makeExtended {} (List.replicate 65527 0)).serialize.length = 65536 := by
    rw [length_serialize_plain, List.length_replicate]
  exact unwrapTcp_cut 1 7 hround (by rw [hlength]; decide) (by rw [hlength]; decide)
    (hall 1 _ 7 hround)

end ModbusPp.FrameCodec

import ModbusPp.Core.PduRoundTrip
import ModbusPp.Transport.FrameCodec

/-! The round trips of the PDU format: every standard PDU outside the extended
markers and every consistently built extended PDU survives the wire, bare and in
an RTU frame. -/

namespace ModbusPp.FrameCodec

open Foundation

/-- The PDUs that applications build: a standard one whose function code is not
an extended marker, or an extended one whose flags announce no missing field and
whose payload fits the length field. -/
inductive Built : PDU → Prop
  | standard (fc : FunctionCode) (data : List UInt8) (hfc : ¬fc.IsExtended) :
      Built (.makeStandard fc data)
  | extended (header : FrameHeader) (payload : List UInt8) (hmac : Option HMACDigest)
      (hv : header.version = 1)
      (hts : header.flags.has .hasTimestamp = true → header.timestamp.isSome = true)
      (hflag : header.flags.has .hasHMAC = true → hmac.isSome = true)
        (hlen : payload.length ≤ 65535) :
      Built (.makeExtended header payload hmac)

theorem Built.parse {pdu : PDU} (h : Built pdu) : PDU.parse pdu.serialize = .value pdu := by
  cases h with
  | standard fc data hfc =>
    exact PDU.parse_serialize (PDU.makeStandard_onWire hfc data) fun h => hfc (Or.inr h)
  | extended header payload hmac hv hts hflag hlen =>
    exact PDU.parse_serialize (PDU.makeExtended_onWire hv hts hflag hlen)
      (show FunctionCode.extended ≠ .extendedStream by decide)

/-- Encoding and decoding are inverse on the whole PDU format, and in RTU frames. -/
theorem pdu_roundTrip :
    (∀ fc data, fc ≠ FunctionCode.extended → fc ≠ .extendedStream →
      PDU.deserialize (.ofList (PDU.makeStandard fc data).serialize) =
        .ok (.value (.makeStandard fc data))) ∧
    (∀ header payload hmac, header.version = 1 →
      (header.flags.has .hasTimestamp = true → header.timestamp.isSome = true) →
      (header.flags.has .hasHMAC = true → hmac.isSome = true) → payload.length ≤ 65535 →
      PDU.deserialize (.ofList (PDU.makeExtended header payload hmac).serialize) =
        .ok (.value (.makeExtended header payload hmac))) ∧
    (∀ unitId pdu, Built pdu → unwrapRtu (.ofList (wrapRtu unitId pdu)) =
      .ok (.value (unitId, pdu))) := by
  refine ⟨?_, ?_, ?_⟩
  · intro fc data hext hstream
    rw [PDU.deserialize_ofList, (Built.standard fc data (not_or.mpr ⟨hext, hstream⟩)).parse]
  · intro header payload hmac hv hts hflag hlen
    rw [PDU.deserialize_ofList, (Built.extended header payload hmac hv hts hflag hlen).parse]
  · intro unitId pdu h
    rw [unwrapRtu_wrapRtu, h.parse, Result.andThen_value]

theorem pdu_roundTrip_negative_timestamp :
    PDU.deserialize (.ofList (PDU.makeExtended { timestamp := some ⟨-1⟩ } [7] none).serialize) =
      .ok (.value (.makeExtended { timestamp := some ⟨-1⟩ } [7] none)) :=
  pdu_roundTrip.2.1 { timestamp := some ⟨-1⟩ } [7] none rfl (fun _ => rfl) (by decide) (by decide)

end ModbusPp.FrameCodec

import ModbusPp.Core.PduRoundTrip
import ModbusPp.Pipeline.Pipeline
import ModbusPp.Transport.Traced

/-! What becomes of a request on its way through `submit`. An extended request is taken
apart and built again under the correlation id, a standard one travels as the payload of an
extended frame. `make_extended` has one function code for all it builds, so of the two
extended codes only `0x6E` arrives. -/

namespace ModbusPp

open Foundation TransportEvent

namespace FrameFlag

theorem or_eq_self {a b : FrameFlag} {k : ℕ} (hb : b.bits.toBitVec = BitVec.twoPow 16 k)
    (h : a.has b = true) :
    a ||| b = a := by
  have hbit : a.bits.toBitVec.getLsbD k = true := by
    by_contra hclear
    rw [has_iff, ne_eq, ← UInt16.toBitVec_inj, UInt16.toBitVec_and, hb, BitVec.and_twoPow,
      if_neg hclear] at h
    exact h rfl
  apply congrArg FrameFlag.mk
  apply UInt16.toBitVec_inj.mp
  rw [UInt16.toBitVec_or, hb]
  ext i hi
  rw [BitVec.getElem_or, BitVec.getElem_twoPow, Bool.or_eq_left_iff_imp, decide_eq_true_eq]
  rintro rfl
  rwa [← BitVec.getLsbD_eq_getElem]

end FrameFlag

namespace PDU

/-- The PDUs there are: what the two constructors build, and what was decoded. -/
inductive Constructed : PDU → Prop
  | standard (fc : FunctionCode) (data : List UInt8) : Constructed (makeStandard fc data)
  | extended (header : FrameHeader) (payload : List UInt8) (hmac : Option HMACDigest) :
    Constructed (makeExtended header payload hmac)
  | decoded {raw : List UInt8} {pdu : PDU} (h : deserialize (.ofList raw) = .ok (.value pdu)) :
      Constructed pdu

/-- An extended request of version 1 with the flags of its optional fields, or a standard
one with a standard function code, that fits a payload length field. -/
def Carriable (request : PDU) : Prop :=
  match request.extHeader with
  | some hdr => hdr.version = 1 ∧ hdr.timestamp.isSome = hdr.flags.has .hasTimestamp ∧
      request.hmac.isSome = hdr.flags.has .hasHMAC ∧ request.payload.length ≤ 65535
  | none => ¬request.functionCode.IsExtended ∧ request.serialize.length ≤ 65535

variable {request : PDU} {hdr : FrameHeader} {payload : List UInt8} {hmac : Option HMACDigest}

theorem extendedFlags_eq (hdr : FrameHeader)
    (hts : hdr.timestamp.isSome = hdr.flags.has .hasTimestamp)
    (hflag : hmac.isSome = hdr.flags.has .hasHMAC) : extendedFlags hdr hmac = hdr.flags := by
  have hstamped :
      (if hdr.timestamp.isSome then hdr.flags ||| .hasTimestamp else hdr.flags) = hdr.flags := by
    split_ifs with hsome
    · exact FrameFlag.or_eq_self (k := 0) rfl (hts ▸ hsome)
    · rfl
  rw [extendedFlags, hstamped]
  split_ifs with hsome
  · exact FrameFlag.or_eq_self (k := 1) rfl (hflag ▸ hsome)
  · rfl

theorem Constructed.onWire (h : Constructed request) (hfits : Carriable request) :
    request.OnWire := by
  cases h with
  | standard fc data => exact makeStandard_onWire hfits.1 data
  | extended header payload hmac =>
    obtain ⟨hv, hts, hflag, hlen⟩ := hfits
    change header.timestamp.isSome = (extendedFlags header hmac).has .hasTimestamp at hts
    change hmac.isSome = (extendedFlags header hmac).has .hasHMAC at hflag
    rw [extendedFlags_timestamp] at hts
    rw [extendedFlags_hmac] at hflag
    refine makeExtended_onWire hv (fun hset => ?_) (fun hset => ?_) hlen
    · rw [hts, hset, Bool.true_or]
    · rw [hflag, hset, Bool.true_or]
  | decoded h => exact parse_onWire (by rwa [deserialize_ofList, Except.ok.injEq] at h)

theorem makeExtended_of_coherent (hcoherent : Coherent request hdr) (corrId : CorrelationID) :
    makeExtended { hdr with correlationId := corrId } request.payload request.hmac =
      { request with
        functionCode := .extended, extHeader := some { hdr with correlationId := corrId } } := by
  have hlen : UInt16.ofNat request.payload.length = hdr.payloadLength := by
    rw [hcoherent.length_field, UInt16.ofNat_toNat]
  have hflags : extendedFlags { hdr with correlationId := corrId } request.hmac = hdr.flags :=
    extendedFlags_eq { hdr with correlationId := corrId } hcoherent.timestamp_flag
      hcoherent.hmac_flag
  rw [makeExtended, hlen, hflags]

end PDU

namespace Pipeline

/-- The frame decodes to the request under the id, or carries it as its payload. -/
def Carriage (frame : List UInt8) (id : CorrelationID) (request : PDU) : Prop :=
  match request.extHeader with
  | some hdr => PDU.deserialize (.ofList frame) =
      .ok (.value { request with extHeader := some { hdr with correlationId := id } })
  | none => ∃ outer hdr, PDU.deserialize (.ofList frame) = .ok (.value outer) ∧
      outer.functionCode = .extended ∧ outer.extHeader = some hdr ∧
      hdr.extFunctionCode = .pipelineBegin ∧
      hdr.correlationId = id ∧ PDU.deserialize (.ofList outer.payload) = .ok (.value request)

variable {request : PDU} {id : CorrelationID}

theorem deserialize_serialize_onWire {pdu : PDU} (h : pdu.OnWire)
    (hfc : pdu.functionCode ≠ .extendedStream) :
    PDU.deserialize (.ofList pdu.serialize) = .ok (.value pdu) := by
  rw [PDU.deserialize_ofList, PDU.parse_serialize h hfc]

theorem toSend_of_coherent {hdr : FrameHeader} (hhdr : request.extHeader = some hdr)
    (hcoherent : PDU.Coherent request hdr) (id : CorrelationID) : toSend id request =
      { request with
        functionCode := .extended, extHeader := some { hdr with correlationId := id } } := by
  rw [toSend, hhdr]
  exact PDU.makeExtended_of_coherent hcoherent id

theorem toSend_standard (hhdr : request.extHeader = none) (id : CorrelationID) :
    toSend id request = .makeExtended { correlationId := id, extFunctionCode := .pipelineBegin }
      request.serialize := by
  rw [toSend, hhdr]

/-- An extended request arrives under its own function code if that is the one it is sent under. -/
theorem carriage_extended_iff {hdr : FrameHeader} (hhdr : request.extHeader = some hdr)
    (hext : request.functionCode.IsExtended) (hcoherent : PDU.Coherent request hdr) :
    Carriage (toSend id request).serialize id request ↔ request.functionCode ≠ .extendedStream := by
  have hsent := toSend_of_coherent hhdr hcoherent id
  have hcode : (toSend id request).functionCode = .extended := by rw [hsent]
  have hwire : (toSend id request).OnWire := by
    rw [hsent]
    exact ⟨.inl rfl, hcoherent.version_one, hcoherent.timestamp_flag, hcoherent.hmac_flag,
      hcoherent.length_field⟩
  have hread := deserialize_serialize_onWire hwire (by rw [hcode]; decide)
  rw [Carriage, hhdr]
  dsimp only
  rw [hread, Except.ok.injEq, Result.value.injEq, hsent, PDU.mk.injEq]
  simp only [and_self, and_true]
  rcases hext with hext | hext
  · rw [hext]
    decide
  · rw [hext]
    decide

theorem carriage_standard (hhdr : request.extHeader = none) (hwire : request.OnWire)
    (hfc : request.functionCode ≠ .extendedStream) (hlen : request.serialize.length ≤ 65535) :
    Carriage (toSend id request).serialize id request := by
  have houter : (PDU.makeExtended { correlationId := id, extFunctionCode := .pipelineBegin }
    request.serialize).OnWire :=
    PDU.makeExtended_onWire rfl
      (fun h : FrameFlag.none.has .hasTimestamp = true => absurd h (by decide))
      (fun h : FrameFlag.none.has .hasHMAC = true => absurd h (by decide)) hlen
  have hcode : FunctionCode.extended ≠ .extendedStream := by decide
  rw [Carriage, hhdr, toSend_standard hhdr]
  exact ⟨_, _, deserialize_serialize_onWire houter hcode, rfl, rfl, rfl, rfl,
    deserialize_serialize_onWire hwire hfc⟩

theorem carriage_toSend_iff (hwire : request.OnWire) (hfits : PDU.Carriable request) :
    Carriage (toSend id request).serialize id request ↔ request.functionCode ≠ .extendedStream := by
  cases hhdr : request.extHeader with
  | some hdr =>
    rw [PDU.OnWire, hhdr] at hwire
    exact carriage_extended_iff hhdr hwire.1 hwire.2
  | none =>
    rw [PDU.Carriable, hhdr] at hfits
    obtain ⟨hext, hlen⟩ := hfits
    have hfc : request.functionCode ≠ .extendedStream := fun heq => hext (.inr heq)
    exact iff_of_true (carriage_standard hhdr hwire hfc hlen) hfc

/-- A submission that returns an id has sent one frame, and it carries the request under
that id exactly if the request does not have the stream function code. -/
theorem submit_carries_iff {τ : Type} (T : Transport τ) {callback : Callback}
    {timeout : Milliseconds} {now : Timestamp} {s s' : Pipelining (τ × List TransportEvent)}
    (hbuilt : PDU.Constructed request) (hfits : PDU.Carriable request)
    (h : submit T.traced request callback timeout now s = .ok (.value id, s')) :
    ∃ frame, sentFrames s'.net.2 = sentFrames s.net.2 ++ [frame] ∧
      (Carriage frame id request ↔ request.functionCode ≠ .extendedStream) := by
  obtain ⟨sent, queue, hsend, -, hcases⟩ := submit_cases T.traced h
  have hid : id = s.pipeline.nextId := by
    rcases hcases with ⟨-, hfail, -⟩ | ⟨-, -, hfail, -⟩ | ⟨-, -, -, hvalue, -⟩ |
      ⟨-, -, -, hvalue, -⟩
    · cases hfail
    · cases hfail
    · exact Result.value.inj hvalue
    · exact Result.value.inj hvalue
  have htrace := (Transport.traced_send hsend).2
  refine ⟨(toSend id request).serialize, ?_, carriage_toSend_iff (hbuilt.onWire hfits) hfits⟩
  rw [htrace, sentFrames_append, sentFrames_sent, sentFrames_nil, hid]
  rfl

/-- A single read under the first id of a new pipeline. -/
theorem submit_carries_read : ∃ s' frame,
    submit Transport.replies.traced (.makeStandard .readHoldingRegisters [0, 0, 0, 1])
      ⟨0, false⟩ 0 ⟨0⟩
        ⟨create {}, [], []⟩ = .ok (.value 1, s') ∧ sentFrames s'.net.2 = [frame] ∧
      (Carriage frame 1 (.makeStandard .readHoldingRegisters [0, 0, 0, 1]) ↔
        (PDU.makeStandard .readHoldingRegisters [0, 0, 0, 1]).functionCode ≠ .extendedStream) := by
  obtain ⟨frame, hsent, hcarries⟩ := submit_carries_iff Transport.replies
    (s := ⟨create {}, [], []⟩) (.standard .readHoldingRegisters [0, 0, 0, 1])
      ⟨by decide, by decide⟩ rfl
  exact ⟨_, frame, rfl, hsent, hcarries⟩

/-- An event notification that was received under the stream code. -/
def streamRequest : PDU := ⟨.extendedStream, some { extFunctionCode := ⟨5⟩ }, [], none⟩

theorem streamRequest_constructed : PDU.Constructed streamRequest :=
  .decoded (show PDU.deserialize (.ofList [0x6F, 1, 0, 0, 0, 0, 5, 0, 0]) =
    .ok (.value streamRequest) from rfl)

/-- It is sent on under the other code. -/
theorem stream_request_recoded :
    ¬∀ (request : PDU) (callback : Callback) (timeout : Milliseconds) (now : Timestamp) (id : CorrelationID)
      (s s' : Pipelining (List (List UInt8) × List TransportEvent)), PDU.Constructed request →
        PDU.Carriable request →
      submit Transport.replies.traced request callback timeout now s = .ok (.value id, s') →
        ∀ frame ∈ sentFrames s'.net.2, frame ∉ sentFrames s.net.2 → Carriage frame id request := by
  intro hall
  have hcarries :=
    hall streamRequest ⟨0, false⟩ 0 ⟨0⟩ 1 ⟨create {}, [], []⟩ _ streamRequest_constructed
    ⟨rfl, rfl, rfl, by decide⟩ rfl (toSend 1 streamRequest).serialize
      (List.mem_singleton_self _) List.not_mem_nil
  have hcode := (carriage_extended_iff rfl (.inr rfl) ⟨rfl, rfl, rfl, rfl⟩).mp hcarries
  exact hcode rfl

end Pipeline

end ModbusPp

import ModbusPp.Client.Authentication
import ModbusPp.Client.Operation
import ModbusPp.Core.PduAcceptance
import ModbusPp.Foundation.Run
import ModbusPp.Pipeline.Pipeline

/-! Extended traffic after the handshake. `authenticate` stores a session that nothing
reads: `batch_read` and the pipeline send the frames they would send without it, and
take the responses they would take without it. -/

namespace ModbusPp

open Foundation TransportEvent

/-! ### A client and its pipeline in use -/

/-- A client with its pipeline, on one transport. -/
structure Endpoint (τ : Type) where
  client : Client
  pipeline : Pipeline
  net : τ

/-- A call; `other` is a use of the transport by anything else, as a scan, the subscriber
or another client. -/
inductive EndpointCall (τ : Type)
  | authenticate (clientNonce : Nonce) (unit : UInt8)
  | operation (op : Operation)
  | submit (request : PDU) (callback : Callback) (timeout : Milliseconds) (now : Timestamp)
  | poll (matchedAt sweptAt : Timestamp)
  | cancel (id : CorrelationID)
  | other (use : τ → τ)

inductive EndpointOutcome
  | authenticated (result : Result Session)
  | returned (out : Outcome)
  | submitted (result : Result CorrelationID)
  | polled (log : PollLog)
  | cancelled (found : Bool)
  | used

/-- A call that returned: when and in which state it was made, and what crossed the
transport in it. -/
structure EndpointEvent (τ : Type) where
  now : Timestamp
  call : EndpointCall τ
  before : Endpoint τ
  outcome : EndpointOutcome
  trace : List TransportEvent

namespace Endpoint

variable {τ : Type} (T : Transport τ) (compute : KeyedHash)

def start (config : ClientConfig) (pipelineConfig : PipelineConfig) (net : τ) : Endpoint τ where
  client := { config }
  pipeline := .create pipelineConfig
  net := net

/-- Make a call at a clock reading. -/
def step (timed : Timestamp × EndpointCall τ) (s : Endpoint τ) :
    Checked (EndpointEvent τ × Endpoint τ) :=
  match timed.2 with
  | .authenticate clientNonce unit => do
    let (result, t) ← Client.authenticate T.traced compute clientNonce unit ⟨s.client, s.net, []⟩
    return (⟨timed.1, timed.2, s, .authenticated result, t.net.2⟩,
      { s with client := t.client, net := t.net.1 })
  | .operation op => do
    let (out, t) ← op.run T.traced ⟨s.client, s.net, []⟩
    return (⟨timed.1, timed.2, s, .returned out, t.net.2⟩,
      { s with client := t.client, net := t.net.1 })
  | .submit request callback timeout now => do
    let (result, t) ← Pipeline.submit T.traced request callback timeout now ⟨s.pipeline, s.net, []⟩
    return (⟨timed.1, timed.2, s, .submitted result, t.net.2⟩,
      { s with pipeline := t.pipeline, net := t.net.1 })
  | .poll matchedAt sweptAt => do
    let (log, t) ← Pipeline.poll T.traced matchedAt sweptAt ⟨s.pipeline, s.net, []⟩
    return (⟨timed.1, timed.2, s, .polled log, t.net.2⟩,
      { s with pipeline := t.pipeline, net := t.net.1 })
  | .cancel id => do
    let (found, pipeline) := s.pipeline.cancel id
    return (⟨timed.1, timed.2, s, .cancelled found, []⟩, { s with pipeline })
  | .other use => return (⟨timed.1, timed.2, s, .used, []⟩, { s with net := use s.net })

end Endpoint

/-! ### Protection -/

/-- The PDU carries a digest that the session's `verify` accepts for the bytes of it that
are signed. -/
def Session.Accepts (compute : KeyedHash) (signedBytes : PDU → List UInt8)
    (session : Session) (pdu : PDU) : Prop :=
  ∃ hdr digest, pdu.extHeader = some hdr ∧ hdr.flags.has .hasHMAC = true ∧ pdu.hmac = some digest ∧
    session.verify compute (signedBytes pdu) digest = true

/-- The PDU has neither a digest nor the flag that announces one. -/
def PDU.Unsigned (pdu : PDU) : Prop :=
  pdu.hmac = none ∧ ∀ hdr, pdu.extHeader = some hdr → hdr.flags.has .hasHMAC = false

/-- The payload of a response gives the operation nothing to return. -/
def Operation.Unreadable (payload : List UInt8) : Operation → Prop
  | readHoldingRegisters _ _ _ =>
      ∀ byteCount data, payload = byteCount :: data → data.length < byteCount.toNat
  | _ => False

section protection

variable {τ : Type}

namespace EndpointCall

/-- The frames of the pipeline are bare PDUs, all others have an MBAP header. -/
def Carries (frame : List UInt8) (pdu : PDU) : EndpointCall τ → Prop
  | submit _ _ _ _ | poll _ _ => PDU.deserialize (.ofList frame) = .ok (.value pdu)
  | _ => ∃ unitId txnId, FrameCodec.unwrapTcp (.ofList frame) = .ok (.value (unitId, pdu, txnId))

/-- The calls whose frames the session has to sign. -/
def ToSign : EndpointCall τ → Prop
  | operation (.batchRead _ _ _) => True
  | submit request _ _ _ => request.Unsigned
  | _ => False

end EndpointCall

/-- The payload of the response reached the caller or a callback. -/
def EndpointOutcome.Delivers (pdu : PDU) : EndpointOutcome → Prop
  | returned out => out.hasValue = true
  | polled log => ∃ invocation ∈ log.invoked, invocation.result = .value pdu
  | _ => False

namespace EndpointEvent

/-- The session that the call established. -/
def established (e : EndpointEvent τ) : Option Session :=
  match e.outcome with
  | .authenticated (.value session) => some session
  | _ => none

/-- The call was made with this session in force. -/
def Live (e : EndpointEvent τ) (session : Session) : Prop :=
  e.before.client.session = some session ∧ ¬session.IsExpired e.now

/-- What has to be signed is signed, and no extended response is delivered that the
session does not accept. -/
structure Protected (compute : KeyedHash) (signedBytes : PDU → List UInt8) (session : Session)
    (e : EndpointEvent τ) : Prop where
  signed : e.call.ToSign → ∀ frame ∈ sentFrames e.trace,
    ∃ pdu, e.call.Carries frame pdu ∧ session.Accepts compute signedBytes pdu
  verified : ∀ frame ∈ receivedFrames e.trace, ∀ pdu, e.call.Carries frame pdu →
    pdu.isExtended = true →
    ¬session.Accepts compute signedBytes pdu → ¬e.outcome.Delivers pdu

/-- The response is of no use to the call: nothing can be read from it, or no callback
waits for it. -/
def Useless (e : EndpointEvent τ) (pdu : PDU) : Prop :=
  match e.call with
  | .operation op => op.Unreadable pdu.payload
  | .poll _ _ => ∀ r, e.before.pipeline.queue.find (Pipeline.correlationOf pdu) = some r →
      r.callback.isSet = false
  | _ => True

/-- There is nothing to sign, and no extended response comes in that the session does not
accept and that is of use. -/
structure Spared (compute : KeyedHash) (signedBytes : PDU → List UInt8) (session : Session)
    (e : EndpointEvent τ) : Prop where
  unsigned : ¬e.call.ToSign
  unverified :
    ∀ frame ∈ receivedFrames e.trace, ∀ pdu, e.call.Carries frame pdu → pdu.isExtended = true →
    ¬session.Accepts compute signedBytes pdu → e.Useless pdu

end EndpointEvent

/-! ### Frames without a digest -/

theorem Session.not_accepts {compute : KeyedHash} {signedBytes : PDU → List UInt8}
    {session : Session} {raw : Span UInt8} {pdu : PDU} {flags : FrameFlag}
    (h : PDU.deserialize raw = .ok (.value pdu)) (hhi : raw.read 2 = .ok (hiByte flags.bits))
    (hlo : raw.read 3 = .ok (loByte flags.bits)) (hflags : flags.has .hasHMAC = false) :
    ¬session.Accepts compute signedBytes pdu := by
  rintro ⟨hdr, digest, hhdr, hhas, -, -⟩
  obtain ⟨fc, -, -, ⟨-, hnone⟩ | ⟨-, hdr', hi, lo, hhdr', hhi', hlo', hflags'⟩⟩ :=
    PDU.deserialize_shape h
  · rw [hnone] at hhdr
    cases hhdr
  · rw [hhdr, Option.some.injEq] at hhdr'
    rw [hhi, Except.ok.injEq] at hhi'
    rw [hlo, Except.ok.injEq] at hlo'
    rw [hhdr', hflags', ← hhi', ← hlo', word_bytes, hflags] at hhas
    cases hhas

theorem PDU.makeExtended_unsigned {hdr : FrameHeader} (h : hdr.flags.has .hasHMAC = false)
    (payload : List UInt8) :
    ∃ hdr', (makeExtended hdr payload none).extHeader = some hdr' ∧
      hdr'.flags.has .hasHMAC = false := by
  refine ⟨_, makeExtended_header hdr payload none, ?_⟩
  rw [storedHeader, extendedFlags_hmac, h]
  rfl

theorem Pipeline.toSend_unsigned (corrId : CorrelationID) {request : PDU} (h : request.Unsigned) :
    ∃ hdr, (toSend corrId request).extHeader = some hdr ∧ hdr.flags.has .hasHMAC = false := by
  obtain ⟨hhmac, hflags⟩ := h
  unfold toSend
  split
  · rename_i hdr hhdr
    rw [hhmac]
    exact PDU.makeExtended_unsigned
      (hflags hdr hhdr : { hdr with correlationId := corrId }.flags.has .hasHMAC = false) _
  · exact PDU.makeExtended_unsigned (show FrameFlag.none.has .hasHMAC = false by decide) _

theorem Client.batchReadRequest_unsigned (config : ClientConfig)
    (now : Timestamp) (request : BatchRequest) :
    ∃ hdr, (batchReadRequest config now request).extHeader = some hdr ∧
      hdr.flags.has .hasHMAC = false :=
  PDU.makeExtended_unsigned (show FrameFlag.none.has .hasHMAC = false by decide) _

/-! ### What a call sends and delivers -/

theorem FunctionCode.IsExtended.not_exception {fc : FunctionCode}
    (h : fc.IsExtended) : ¬fc.IsException := by
  rcases h with rfl | rfl
  · decide
  · decide

theorem Client.decodeResponse_extended {bytes : List UInt8} {unitId : UInt8}
    {pdu : PDU} {txnId : UInt16}
    (h : FrameCodec.unwrapTcp (.ofList bytes) = .ok (.value (unitId, pdu, txnId)))
    (hext : pdu.isExtended = true) :
    decodeResponse bytes = .ok (.value pdu) := by
  obtain ⟨fc, -, hfc, ⟨-, hnone⟩ | ⟨hextended, -⟩⟩ :=
    PDU.deserialize_shape (FrameCodec.unwrapTcp_value h).2
  · rw [PDU.isExtended, hnone] at hext
    cases hext
  · rw [decodeResponse_value h, responseResult_of_not (hfc ▸ hextended.not_exception)]

theorem Operation.finish_value {op : Operation}
    (hop : ∀ now unit request, op ≠ .batchRead now unit request) {pdu : PDU}
    {out : Outcome} (h : op.finish (.value pdu) = .ok out) :
    out.hasValue = true ↔ ¬op.Unreadable pdu.payload := by
  cases op with
  | transact unit request =>
    cases h
    exact iff_of_true rfl fun hfalse => hfalse
  | readHoldingRegisters unit addr count =>
    cases h
    change (Client.readResponse pdu).hasValue = true ↔ ¬∀ byteCount data, _
    unfold Client.readResponse
    split
    · rename_i hpayload
      refine iff_of_false Bool.false_ne_true (not_not.mpr fun byteCount data hcons => ?_)
      rw [hpayload] at hcons
      cases hcons
    · rename_i byteCount data hpayload
      split_ifs with hshort
      · refine iff_of_false Bool.false_ne_true (not_not.mpr fun byteCount' data' hcons => ?_)
        rw [hpayload] at hcons
        cases hcons
        omega
      · refine iff_of_true rfl fun hall => ?_
        have := hall byteCount data hpayload
        omega
  | writeSingleRegister unit addr value =>
    cases h
    exact iff_of_true rfl fun hfalse => hfalse
  | writeMultipleRegisters unit addr values =>
    cases h
    exact iff_of_true rfl fun hfalse => hfalse
  | batchRead now unit request => exact absurd rfl (hop now unit request)

theorem Operation.run_traced {T : Transport τ} {op : Operation} {out : Outcome}
    {s s' : Running (τ × List TransportEvent)} (h : op.run T.traced s = .ok (out, s')) :
    ∃ events result, s'.net.2 = s.net.2 ++ events ∧
      Client.Exchanged (op.frame s.client) events result ∧
      op.finish result = .ok out ∧ s'.client = s.client.advance := by
  rw [run_eq] at h
  obtain ⟨⟨result, s₁⟩, htransact, h⟩ := bind_eq_ok.mp h
  obtain ⟨out', hfinish, h⟩ := bind_eq_ok.mp h
  cases h
  obtain ⟨hclient, events, htrace, hexchanged⟩ := Client.transact_traced htransact
  exact ⟨events, result, htrace, hexchanged, hfinish, hclient⟩

theorem Pipeline.Completes.invokes_iff {sweptAt : Timestamp} {p p' : Pipeline}
    {pdu : PDU} {r : PendingRequest} {log : PollLog} (h : Completes sweptAt p p' pdu r log) :
    (∃ invocation ∈ log.invoked, invocation.result = .value pdu) ↔ r.callback.isSet = true := by
  rw [h.invoked]
  constructor
  · rintro ⟨invocation, hmem, hresult⟩
    rcases List.mem_append.mp hmem with hmem | hmem
    · unfold Callback.invoke at hmem
      split_ifs at hmem with hset
      · exact hset
      · cases hmem
    · obtain ⟨req, -, hmem⟩ := List.mem_flatMap.mp hmem
      unfold Callback.invoke at hmem
      split_ifs at hmem
      · rw [List.mem_singleton.mp hmem] at hresult
        cases hresult
      · cases hmem
  · intro hset
    exact ⟨⟨r.callback, .value pdu⟩, List.mem_append_left _ (by simp [Callback.invoke, hset]), rfl⟩

/-- An operation other than a batch read returns a value for every extended response that
it can read. -/
theorem Operation.returns_iff {op : Operation}
    (hop : ∀ now unit request, op ≠ .batchRead now unit request)
    {request : List UInt8} {events : List TransportEvent} {result : Result PDU} {out : Outcome}
    (hexchanged : Client.Exchanged request events result)
    (hfinish : op.finish result = .ok out) {frame : List UInt8}
    (hframe : frame ∈ receivedFrames events) {unitId : UInt8} {pdu : PDU} {txnId : UInt16}
    (hunwrap : FrameCodec.unwrapTcp (.ofList frame) = .ok (.value (unitId, pdu, txnId)))
    (hext : pdu.isExtended = true) : out.hasValue = true ↔ ¬op.Unreadable pdu.payload := by
  cases hexchanged with
  | refused hsent => cases hframe
  | unanswered hsent ec => cases hframe
  | answered hsent hdecode =>
    obtain rfl := List.mem_singleton.mp hframe
    rw [Client.decodeResponse_extended hunwrap hext, Except.ok.injEq] at hdecode
    subst hdecode
    exact finish_value hop hfinish

/-- A poll passes the PDU it receives on if and only if a request with a callback is in
flight under its correlation id. -/
theorem Pipeline.poll_invokes_iff {T : Transport τ} {matchedAt sweptAt : Timestamp}
    {p : Pipeline} {net : τ} {log : PollLog} {t : Pipelining (τ × List TransportEvent)}
    (h : poll T.traced matchedAt sweptAt ⟨p, net, []⟩ = .ok (log, t)) {frame : List UInt8}
    (hframe : frame ∈ receivedFrames t.net.2) {pdu : PDU}
    (hdecode : PDU.deserialize (.ofList frame) = .ok (.value pdu)) :
    (∃ invocation ∈ log.invoked, invocation.result = .value pdu) ↔
      ¬∀ r, p.queue.find (correlationOf pdu) = some r → r.callback.isSet = false := by
  rcases poll_inv T.traced h with ⟨ec, hreceive, -, -⟩ |
    ⟨bytes, decoded, hreceive, hdecoded, -, hrest⟩
  · rw [(Transport.traced_receive hreceive).2] at hframe
    cases hframe
  · rw [(Transport.traced_receive hreceive).2] at hframe
    obtain rfl := List.mem_singleton.mp hframe
    rw [hdecode, Except.ok.injEq] at hdecoded
    subst hdecoded
    rcases hrest with ⟨rfl, -, hunmatched⟩ | ⟨pdu', r, hpdu, hcompletes⟩
    · refine iff_of_false ?_ (not_not.mpr fun r hfound => ?_)
      · rintro ⟨invocation, hmem, -⟩
        cases hmem
      · exact absurd (RequestQueue.mem_ids.mpr ⟨r, RequestQueue.find_eq_some.mp hfound⟩)
          (hunmatched pdu rfl)
    · cases hpdu
      refine hcompletes.invokes_iff.trans ⟨fun hset huseless => ?_, fun hused => ?_⟩
      · rw [huseless r hcompletes.found] at hset
        cases hset
      · by_contra hset
        refine hused fun r' hfound => ?_
        rw [hcompletes.found, Option.some.injEq] at hfound
        rw [← hfound]
        simpa using hset

/-! ### One call -/

namespace Endpoint

variable {T : Transport τ} {compute : KeyedHash} {timed : Timestamp × EndpointCall τ}
  {s s' : Endpoint τ}
  {e : EndpointEvent τ}

theorem step_cases (h : step T compute timed s = .ok (e, s')) :
    e.now = timed.1 ∧ e.call = timed.2 ∧ e.before = s ∧
    match timed.2 with
    | .authenticate clientNonce unit => ∃ result t, e.outcome = .authenticated result ∧
        e.trace = t.net.2 ∧
        s'.client = t.client ∧
        Client.authenticate T.traced compute clientNonce unit ⟨s.client, s.net, []⟩ =
          .ok (result, t)
    | .operation op => ∃ out result, e.outcome = .returned out ∧ s'.client = s.client.advance ∧
        Client.Exchanged (op.frame s.client) e.trace result ∧ op.finish result = .ok out
    | .submit request callback timeout now => ∃ result sent, e.outcome = .submitted result ∧
        s'.client = s.client ∧
        e.trace = [.sent
          (s.pipeline.nextPending request callback timeout now).request.serialize sent]
    | .poll matchedAt sweptAt => ∃ log t, e.outcome = .polled log ∧
        e.trace = t.net.2 ∧ s'.client = s.client ∧
        Pipeline.poll T.traced matchedAt sweptAt ⟨s.pipeline, s.net, []⟩ = .ok (log, t)
    | .cancel id => s'.client = s.client ∧ e.trace = [] ∧
        e.outcome = .cancelled (s.pipeline.cancel id).1
    | .other _ => s'.client = s.client ∧ e.trace = [] ∧ e.outcome = .used := by
  obtain ⟨now, call⟩ := timed
  cases call with
  | authenticate clientNonce unit =>
    obtain ⟨⟨result, t⟩, hauth, h⟩ := bind_eq_ok.mp h
    cases h
    exact ⟨rfl, rfl, rfl, result, t, rfl, rfl, rfl, hauth⟩
  | operation op =>
    obtain ⟨⟨out, t⟩, hop, h⟩ := bind_eq_ok.mp h
    cases h
    obtain ⟨events, result, htrace, hexchanged, hfinish, hclient⟩ := Operation.run_traced hop
    rw [List.nil_append] at htrace
    exact ⟨rfl, rfl, rfl, out, result, rfl, hclient, htrace ▸ hexchanged, hfinish⟩
  | submit request callback timeout now =>
    obtain ⟨⟨result, t⟩, hsubmit, h⟩ := bind_eq_ok.mp h
    cases h
    obtain ⟨sent, queue, hsend, -, -⟩ := Pipeline.submit_cases T.traced hsubmit
    exact ⟨rfl, rfl, rfl, result, sent, rfl, rfl, (Transport.traced_send hsend).2⟩
  | poll matchedAt sweptAt =>
    obtain ⟨⟨log, t⟩, hpoll, h⟩ := bind_eq_ok.mp h
    cases h
    exact ⟨rfl, rfl, rfl, log, t, rfl, rfl, rfl, hpoll⟩
  | cancel id =>
    cases h
    exact ⟨rfl, rfl, rfl, rfl, rfl, rfl⟩
  | other use =>
    cases h
    exact ⟨rfl, rfl, rfl, rfl, rfl, rfl⟩

theorem unsigned_sent (signedBytes : PDU → List UInt8) (session : Session)
    (h : step T compute timed s = .ok (e, s')) (hsign : e.call.ToSign) :
    ∃ frame ∈ sentFrames e.trace, ∀ pdu, e.call.Carries frame pdu →
      ¬session.Accepts compute signedBytes pdu := by
  obtain ⟨-, hcall, -, hcases⟩ := step_cases h
  obtain ⟨now, call⟩ := timed
  rw [hcall] at hsign ⊢
  cases call with
  | operation op =>
    cases op with
    | batchRead clock unit request =>
      obtain ⟨out, result, -, -, hexchanged, -⟩ := hcases
      refine ⟨_, by rw [hexchanged.sentFrames]; exact List.mem_singleton_self _, ?_⟩
      rintro pdu ⟨unitId, txnId, hunwrap⟩
      obtain ⟨hdr, hhdr, hflags⟩ := Client.batchReadRequest_unsigned s.client.config clock request
      have hdecode := (FrameCodec.unwrapTcp_value hunwrap).2
      refine Session.not_accepts hdecode ?_ ?_ hflags
      · simp only [Operation.frame, Client.requestFrame, Operation.request, FrameCodec.wrapTcp,
          PDU.serialize_extended hhdr]
        rfl
      · simp only [Operation.frame, Client.requestFrame, Operation.request, FrameCodec.wrapTcp,
          PDU.serialize_extended hhdr]
        rfl
    | _ => cases hsign
  | submit request callback timeout clock =>
    obtain ⟨result, sent, -, -, htrace⟩ := hcases
    refine ⟨_, by rw [htrace]; exact List.mem_singleton_self _, fun pdu hcarries => ?_⟩
    obtain ⟨hdr, hhdr, hflags⟩ := Pipeline.toSend_unsigned s.pipeline.nextId hsign
    refine Session.not_accepts hcarries ?_ ?_ hflags
    · rw [Pipeline.nextPending, PDU.serialize_extended hhdr]
      rfl
    · rw [Pipeline.nextPending, PDU.serialize_extended hhdr]
      rfl
  | _ => cases hsign

theorem delivers_useful (h : step T compute timed s = .ok (e, s'))
    (hsign : ¬e.call.ToSign) {frame : List UInt8} (hframe : frame ∈ receivedFrames e.trace)
    {pdu : PDU} (hcarries : e.call.Carries frame pdu) (hext : pdu.isExtended = true) :
    e.outcome.Delivers pdu ↔ ¬e.Useless pdu := by
  obtain ⟨-, hcall, hbefore, hcases⟩ := step_cases h
  obtain ⟨now, call⟩ := timed
  unfold EndpointEvent.Useless
  rw [hcall] at hsign hcarries ⊢
  cases call with
  | authenticate clientNonce unit =>
    obtain ⟨result, t, houtcome, -, -, -⟩ := hcases
    rw [houtcome]
    exact iff_of_false (fun hfalse => hfalse) (not_not.mpr trivial)
  | operation op =>
    obtain ⟨out, result, houtcome, -, hexchanged, hfinish⟩ := hcases
    rw [houtcome]
    obtain ⟨unitId, txnId, hunwrap⟩ := hcarries
    refine Operation.returns_iff ?_ hexchanged hfinish hframe hunwrap hext
    rintro clock unit request rfl
    exact hsign trivial
  | submit request callback timeout clock =>
    obtain ⟨result, sent, -, -, htrace⟩ := hcases
    rw [htrace] at hframe
    cases hframe
  | poll matchedAt sweptAt =>
    obtain ⟨log, t, houtcome, htrace, -, hpoll⟩ := hcases
    rw [houtcome, hbefore]
    rw [htrace] at hframe
    exact Pipeline.poll_invokes_iff hpoll hframe hcarries
  | cancel id =>
    rw [hcases.2.1] at hframe
    cases hframe
  | other use =>
    rw [hcases.2.1] at hframe
    cases hframe

theorem protected_iff_spared {signedBytes : PDU → List UInt8} {session : Session}
    (h : step T compute timed s = .ok (e, s')) :
    e.Protected compute signedBytes session ↔ e.Spared compute signedBytes session := by
  constructor
  · intro hprotected
    have hsign : ¬e.call.ToSign := by
      intro hsign
      obtain ⟨frame, hframe, hno⟩ := unsigned_sent signedBytes session h hsign
      obtain ⟨pdu, hcarries, haccepts⟩ := hprotected.signed hsign frame hframe
      exact hno pdu hcarries haccepts
    refine ⟨hsign, fun frame hframe pdu hcarries hext haccepts => ?_⟩
    have hnot := hprotected.verified frame hframe pdu hcarries hext haccepts
    exact not_not.mp fun huseless =>
      hnot ((delivers_useful h hsign hframe hcarries hext).mpr huseless)
  · intro hspared
    refine ⟨fun hsign => absurd hsign hspared.unsigned,
      fun frame hframe pdu hcarries hext haccepts hdelivers => ?_⟩
    exact (delivers_useful h hspared.unsigned hframe hcarries hext).mp hdelivers
      (hspared.unverified frame hframe pdu hcarries hext haccepts)

/-! ### Runs -/

theorem step_session (h : step T compute timed s = .ok (e, s')) :
    s'.client.session = e.established.or s.client.session := by
  obtain ⟨-, -, -, hcases⟩ := step_cases h
  obtain ⟨now, call⟩ := timed
  unfold EndpointEvent.established
  cases call with
  | authenticate clientNonce unit =>
    obtain ⟨result, t, houtcome, -, hclient, hauth⟩ := hcases
    rw [houtcome, hclient]
    rcases Client.authenticate_cases hauth with ⟨ec, rfl, hsession, -⟩ |
      ⟨_, _, _, _, _, _, _, -, -, -, -, -, -, hsession⟩
    · rw [hsession]
      rfl
    · rw [hsession]
      cases result with
      | failure ec => rfl
      | value session => rfl
  | operation op =>
    obtain ⟨out, result, houtcome, hclient, -⟩ := hcases
    rw [houtcome, hclient]
    rfl
  | submit request callback timeout clock =>
    obtain ⟨result, sent, houtcome, hclient, -⟩ := hcases
    rw [houtcome, hclient]
    rfl
  | poll matchedAt sweptAt =>
    obtain ⟨log, t, houtcome, -, hclient, -⟩ := hcases
    rw [houtcome, hclient]
    rfl
  | cancel id =>
    rw [hcases.1, hcases.2.2]
    rfl
  | other use =>
    rw [hcases.1, hcases.2.2]
    rfl

/-- The session of a client is that of the last attempt that succeeded. -/
theorem run_session {calls : List (Timestamp × EndpointCall τ)} {events : List (EndpointEvent τ)}
    (hrun : runAll (step T compute) calls s = .ok (events, s')) :
    s'.client.session = events.foldl (fun session e => e.established.or session)
      s.client.session := by
  induction calls generalizing s events with
  | nil =>
    cases hrun
    rfl
  | cons timed calls ih =>
    obtain ⟨e, s₁, events', hfirst, hothers, rfl⟩ := runAll_cons.mp hrun
    rw [ih hothers, step_session hfirst, List.foldl_cons]

/-- In a run of a new client every call under a session that is in force protects the
extended traffic if and only if each of them is spared. -/
theorem traffic_protected_iff (signedBytes : PDU → List UInt8)
    {config : ClientConfig} {pipelineConfig : PipelineConfig}
    {net : τ} {calls : List (Timestamp × EndpointCall τ)} {events : List (EndpointEvent τ)}
    {last : Endpoint τ}
    (hrun : runAll (step T compute) calls (start config pipelineConfig net) = .ok (events, last)) :
    (∀ e ∈ events, ∀ session, e.Live session → e.Protected compute signedBytes session) ↔
      ∀ e ∈ events, ∀ session, e.Live session → e.Spared compute signedBytes session := by
  obtain ⟨-, hiff⟩ := runAll_keeps (fun _ => True)
    (fun e : EndpointEvent τ => ∀ session, e.Protected compute signedBytes session ↔
      e.Spared compute signedBytes session)
    (fun _ _ _ _ _ h => ⟨trivial, fun _ => protected_iff_spared h⟩) calls trivial hrun
  constructor
  · intro hall e he session hlive
    exact (hiff e he session).mp (hall e he session hlive)
  · intro hall e he session hlive
    exact (hiff e he session).mpr (hall e he session hlive)

end Endpoint

end protection

/-! ### After a handshake -/

namespace Endpoint

/-- A key store with one key. -/
def configured : ClientConfig where
  credentials := some fun _ => .value [7]

/-- The answers of an honest peer to a handshake. -/
def handshakeAnswers : List (List UInt8) :=
  [Client.answerFrame 1 .authChallenge ((Client.nonceOf 2).toList ++
    (computeAuthChallengeResponse Client.firstBytes (Client.nonceOf 1)
      (Client.nonceOf 2) [7]).toList) 1,
  Client.answerFrame 1 .authResponse (List.replicate 24 1) 2]

/-- The session of that handshake, which expires at 0x0101010101010101. -/
def handshakeSession : Session :=
  .create (Block.slice (List.replicate 24 1) 0 16 (by decide))
    (deriveSessionKey Client.firstBytes (Client.nonceOf 1) (Client.nonceOf 2) [7])
    (.deserialize (Block.slice (List.replicate 24 1) 16 8 (by decide)))

theorem handshake (answers : List (List UInt8)) :
    ∃ e client, step Transport.replies Client.firstBytes (⟨0⟩, .authenticate (Client.nonceOf 1) 1)
        (start configured {} (handshakeAnswers ++ answers)) =
          .ok (e, ⟨client, .create {}, answers⟩) ∧
      e.before.client.session = none ∧ client.session = some handshakeSession := by
  have hstored : ({ config := configured } : Client).Stored 1 [7] := ⟨_, rfl, rfl⟩
  obtain ⟨t, hauth, hnet, -⟩ := Client.authenticate_replies answers hstored
    (Client.decodeResponse_answerFrame 1 .authChallenge (by decide) 1)
    (Client.proves_honest Client.firstBytes [7] (Client.nonceOf 1) (Client.nonceOf 2))
    (Client.decodeResponse_answerFrame 1 .authResponse
      (show (List.replicate 24 (1 : UInt8)).length ≤ 65525 by decide) 2)
  have hstep : step Transport.replies Client.firstBytes (⟨0⟩, .authenticate (Client.nonceOf 1) 1)
      (start configured {} (handshakeAnswers ++ answers)) =
        .ok (_, ⟨t.client, .create {}, t.net.1⟩) :=
    bind_eq_ok.mpr ⟨_, hauth, rfl⟩
  have hsession := step_session hstep
  rw [hnet] at hstep
  exact ⟨_, _, hstep, rfl, hsession⟩

/-- A response that the session of the handshake accepts. -/
def signedResponse : PDU :=
  .makeExtended { extFunctionCode := .batchRead } [42]
    (some (handshakeSession.sign Client.firstBytes [42]))

theorem unwrapTcp_signedResponse :
    FrameCodec.unwrapTcp (.ofList (FrameCodec.wrapTcp 1 signedResponse 3)) =
      .ok (.value (1, signedResponse, 3)) := by
  have hwire : signedResponse.OnWire :=
    PDU.makeExtended_onWire rfl (by decide) (fun _ => rfl) (by decide)
  have hround : PDU.RoundTrips signedResponse := by
    rw [PDU.RoundTrips, PDU.deserialize_ofList, PDU.parse_serialize hwire (by decide)]
  exact FrameCodec.unwrapTcp_of_le 1 3 hround (by decide)

theorem signedResponse_accepted :
    handshakeSession.Accepts Client.firstBytes PDU.payload signedResponse :=
  ⟨_, _, rfl, by decide, rfl, (handshakeSession.verify_iff _ _ _).mpr rfl⟩

/-- A raw exchange under the session whose response is signed. -/
theorem traffic_protected_signed : ∃ events last,
    runAll (step Transport.replies Client.firstBytes)
      [(⟨0⟩, .authenticate (Client.nonceOf 1) 1),
        (⟨1⟩, .operation (.transact 1 (Client.readHoldingRequest 0 1)))]
      (start configured {} (handshakeAnswers ++ [FrameCodec.wrapTcp 1 signedResponse 3])) =
        .ok (events, last) ∧
    ∀ e ∈ events, ∀ session, e.Live session →
      e.Protected Client.firstBytes PDU.payload session := by
  obtain ⟨e₁, client, hfirst, hnew, hsession⟩ := handshake [FrameCodec.wrapTcp 1 signedResponse 3]
  have hdecode := Client.decodeResponse_extended unwrapTcp_signedResponse rfl
  have hop : (Operation.transact 1 (Client.readHoldingRequest 0 1)).run Transport.replies.traced
      ⟨client, [FrameCodec.wrapTcp 1 signedResponse 3], []⟩ = .ok (_, _) :=
        Operation.run_received rfl rfl rfl hdecode rfl
  have hsecond : step Transport.replies Client.firstBytes
      (⟨1⟩, .operation (.transact 1 (Client.readHoldingRequest 0 1)))
      ⟨client, .create {}, [FrameCodec.wrapTcp 1 signedResponse 3]⟩ = .ok (_, _) :=
        bind_eq_ok.mpr ⟨_, hop, rfl⟩
  have hrun := runAll_cons.mpr ⟨_, _, _, hfirst,
    runAll_cons.mpr ⟨_, _, [], hsecond, show runAll _ [] _ = .ok ([], _) from rfl, rfl⟩, rfl⟩
  refine ⟨_, _, hrun, (traffic_protected_iff PDU.payload hrun).mpr ?_⟩
  refine List.forall_mem_cons.mpr ⟨?_, List.forall_mem_singleton.mpr ?_⟩
  · rintro session ⟨hlive, -⟩
    rw [hnew] at hlive
    cases hlive
  · rintro session ⟨hlive, -⟩
    obtain rfl : handshakeSession = session := Option.some.inj (hsession.symm.trans hlive)
    refine ⟨fun hsign => hsign, ?_⟩
    rintro frame hframe pdu ⟨unitId, txnId, hunwrap⟩ - haccepts
    obtain rfl := List.mem_singleton.mp hframe
    rw [unwrapTcp_signedResponse] at hunwrap
    cases hunwrap
    exact absurd signedResponse_accepted haccepts

/-- The frame of a batch read is not signed, though the session is in force. -/
theorem batchRead_unprotected : ∃ events last,
    runAll (step Transport.replies Client.firstBytes)
      [(⟨0⟩, .authenticate (Client.nonceOf 1) 1), (⟨1⟩, .operation (.batchRead ⟨1⟩ 1 ⟨[]⟩))]
      (start configured {} handshakeAnswers) = .ok (events, last) ∧
    ∃ e ∈ events, e.Live handshakeSession ∧
      ∀ signedBytes, ¬e.Protected Client.firstBytes signedBytes handshakeSession := by
  obtain ⟨e₁, client, hfirst, -, hsession⟩ := handshake []
  have hop : (Operation.batchRead ⟨1⟩ 1 ⟨[]⟩).run Transport.replies.traced ⟨client, [], []⟩ =
      .ok (_, _) :=
    Operation.run_notReceived rfl rfl rfl rfl
  have hsecond : step Transport.replies Client.firstBytes (⟨1⟩, .operation (.batchRead ⟨1⟩ 1 ⟨[]⟩))
      ⟨client, .create {}, []⟩ = .ok (_, _) := bind_eq_ok.mpr ⟨_, hop, rfl⟩
  have hrun := runAll_cons.mpr ⟨_, _, _, hfirst,
    runAll_cons.mpr ⟨_, _, [], hsecond, show runAll _ [] _ = .ok ([], _) from rfl, rfl⟩, rfl⟩
  have hlasting : ¬handshakeSession.IsExpired ⟨1⟩ := by decide
  refine ⟨_, _, hrun, _, List.mem_cons_of_mem _ (List.mem_singleton_self _),
    ⟨hsession, hlasting⟩, ?_⟩
  intro signedBytes hprotected
  obtain ⟨frame, hframe, hno⟩ := unsigned_sent signedBytes handshakeSession hsecond trivial
  obtain ⟨pdu, hcarries, haccepts⟩ := hprotected.signed trivial frame hframe
  exact hno pdu hcarries haccepts

end Endpoint

end ModbusPp

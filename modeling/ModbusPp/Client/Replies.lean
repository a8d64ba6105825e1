import ModbusPp.Client.Client
import ModbusPp.Client.Server
import ModbusPp.Core.PduAcceptance
import ModbusPp.Transport.Traced

/-! What a server sends for one received frame. A request comes to at most one handler
call and at most one response, and to neither unless the server supports it: every
other request is dropped, although there is an exception code for it. -/

namespace ModbusPp

open Foundation TransportEvent

namespace Server

variable {σ τ : Type}

/-- There is a branch for the function code, a handler for the branch, and enough payload
for the handler. -/
def Supports (server : Server σ) (request : PDU) : Prop :=
  (request.functionCode = .readHoldingRegisters ∧ server.readHandler.isSome ∧
    4 ≤ request.payload.length) ∨
  (request.functionCode = .writeSingleRegister ∧ server.writeHandler.isSome ∧
    4 ≤ request.payload.length) ∨
  (request.functionCode = .writeMultipleRegisters ∧ server.writeHandler.isSome ∧
    5 ≤ request.payload.length)

instance (server : Server σ) (request : PDU) : Decidable (server.Supports request) :=
  inferInstanceAs (Decidable (_ ∨ _))

/-- The read handler was called, and failed. -/
def ReadRefused (call : HandlerCall) : Prop :=
  ∃ addr count ec, call = .read addr count (.failure ec)

/-- What a request comes to before anything is sent: nothing, or a handler call and a
response. -/
inductive Handles (server : Server σ) (request : PDU) (s : Serving σ τ) :
    Option PDU → Serving σ τ → Prop
  | dropped (hno : ¬server.Supports request) : Handles server request s none s
  | answered {call : HandlerCall} {device : σ} {fc : FunctionCode} {data : List UInt8}
    (hyes : server.Supports request)
    (hfc : fc.byte = request.functionCode.byte ∨ fc.byte = request.functionCode.byte ||| 0x80 ∧
      ReadRefused call) :
    Handles server request s (some (.makeStandard fc data))
      { s with device, calls := s.calls ++ [call] }

/-- Send the response, if there is one. -/
def respond (server : Server σ) (T : Transport τ) (txnId : UInt16) (s : Serving σ τ) :
    Option PDU → Checked (Serving σ τ)
  | none => return s
  | some response => server.reply T response txnId s

/-! ### One request -/

section dispatch

variable {server : Server σ} {request : PDU} {s : Serving σ τ} (T : Transport τ) (txnId : UInt16)

theorem supports_read (hfc : request.functionCode = .readHoldingRegisters) :
    server.Supports request ↔ server.readHandler.isSome ∧ 4 ≤ request.payload.length := by
  simp [Supports, hfc, FunctionCode.readHoldingRegisters, FunctionCode.writeSingleRegister,
    FunctionCode.writeMultipleRegisters]

theorem supports_writeSingle (hfc : request.functionCode = .writeSingleRegister) :
    server.Supports request ↔ server.writeHandler.isSome ∧ 4 ≤ request.payload.length := by
  simp [Supports, hfc, FunctionCode.readHoldingRegisters, FunctionCode.writeSingleRegister,
    FunctionCode.writeMultipleRegisters]

theorem supports_writeMultiple (hfc : request.functionCode = .writeMultipleRegisters) :
    server.Supports request ↔ server.writeHandler.isSome ∧ 5 ≤ request.payload.length := by
  simp [Supports, hfc, FunctionCode.readHoldingRegisters, FunctionCode.writeSingleRegister,
    FunctionCode.writeMultipleRegisters]

theorem length_lt_four {data : List UInt8}
    (h : ∀ a b c d rest, data = a :: b :: c :: d :: rest → False) :
    data.length < 4 := by
  rcases data with _ | ⟨a, _ | ⟨b, _ | ⟨c, _ | ⟨d, rest⟩⟩⟩⟩
  case cons.cons.cons.cons => exact (h a b c d rest rfl).elim
  all_goals simp

theorem length_lt_five {data : List UInt8}
    (h : ∀ a b c d e rest, data = a :: b :: c :: d :: e :: rest → False) :
    data.length < 5 := by
  rcases data with _ | ⟨a, _ | ⟨b, _ | ⟨c, _ | ⟨d, _ | ⟨e, rest⟩⟩⟩⟩⟩
  case cons.cons.cons.cons.cons => exact (h a b c d e rest rfl).elim
  all_goals simp

theorem handleRead_handles {handler : ReadHandler σ} (hread : server.readHandler = some handler)
    (hfc : request.functionCode = .readHoldingRegisters) :
    ∃ response s₁, Handles server request s response s₁ ∧
      server.handleRead T handler request txnId s = server.respond T txnId s₁ response := by
  have hsupports : server.Supports request ↔ 4 ≤ request.payload.length := by
    rw [supports_read hfc, hread]; simp
  unfold handleRead
  split
  · rename_i a₁ a₀ c₁ c₀ rest hpayload
    have hyes : server.Supports request := hsupports.mpr (by simp [hpayload])
    rcases handler (word a₁ a₀) (word c₁ c₀) s.device with ⟨regs | ec, device⟩
    · exact ⟨_, _, .answered hyes (.inl (by rw [hfc])), rfl⟩
    · exact ⟨_, _, .answered hyes (.inr ⟨rfl, _, _, ec, rfl⟩), rfl⟩
  · rename_i hshort
    exact ⟨none, s, .dropped fun hyes =>
      absurd (hsupports.mp hyes) (by simpa using length_lt_four hshort), rfl⟩

theorem handleWriteSingle_handles {handler : WriteHandler σ}
    (hwrite : server.writeHandler = some handler)
    (hfc : request.functionCode = .writeSingleRegister) :
    ∃ response s₁, Handles server request s response s₁ ∧
      server.handleWriteSingle T handler request txnId s = server.respond T txnId s₁ response := by
  have hsupports : server.Supports request ↔ 4 ≤ request.payload.length := by
    rw [supports_writeSingle hfc, hwrite]; simp
  unfold handleWriteSingle
  split
  · rename_i hpayload
    have hyes : server.Supports request := hsupports.mpr (by simp [hpayload])
    exact ⟨_, _, .answered hyes (.inl (by rw [hfc])), rfl⟩
  · rename_i hshort
    exact ⟨none, s, .dropped fun hyes =>
      absurd (hsupports.mp hyes) (by simpa using length_lt_four hshort), rfl⟩

theorem handleWriteMultiple_handles {handler : WriteHandler σ}
    (hwrite : server.writeHandler = some handler)
    (hfc : request.functionCode = .writeMultipleRegisters) :
    ∃ response s₁, Handles server request s response s₁ ∧
      server.handleWriteMultiple T handler request txnId s =
        server.respond T txnId s₁ response := by
  have hsupports : server.Supports request ↔ 5 ≤ request.payload.length := by
    rw [supports_writeMultiple hfc, hwrite]; simp
  unfold handleWriteMultiple
  split
  · rename_i hpayload
    have hyes : server.Supports request := hsupports.mpr (by simp [hpayload])
    exact ⟨_, _, .answered hyes (.inl (by rw [hfc])), rfl⟩
  · rename_i hshort
    exact ⟨none, s, .dropped fun hyes =>
      absurd (hsupports.mp hyes) (by simpa using length_lt_five hshort), rfl⟩

/-- One case for each branch of the dispatch. -/
theorem handleRequest_handles (server : Server σ) (request : PDU) (s : Serving σ τ) :
    ∃ response s₁, Handles server request s response s₁ ∧
      server.handleRequest T request txnId s = server.respond T txnId s₁ response := by
  unfold handleRequest
  split_ifs with hread hsingle hmultiple
  · cases hhandler : server.readHandler with
    | none => exact ⟨none, s, .dropped (by simp [supports_read hread, hhandler]), rfl⟩
    | some handler => exact handleRead_handles T txnId hhandler hread
  · cases hhandler : server.writeHandler with
    | none => exact ⟨none, s, .dropped (by simp [supports_writeSingle hsingle, hhandler]), rfl⟩
    | some handler => exact handleWriteSingle_handles T txnId hhandler hsingle
  · cases hhandler : server.writeHandler with
    | none => exact ⟨none, s, .dropped (by simp [supports_writeMultiple hmultiple, hhandler]), rfl⟩
    | some handler => exact handleWriteMultiple_handles T txnId hhandler hmultiple
  · exact ⟨none, s, .dropped (by simp [Supports, hread, hsingle, hmultiple]), rfl⟩

end dispatch

/-! ### One turn -/

section turn

variable {server : Server σ} {T : Transport τ} {request : PDU} {txnId : UInt16}
  {unit : UInt8} {bytes : List UInt8}

/-- The frame holds a request for the server. -/
def Takes (server : Server σ) (bytes : List UInt8) : Prop :=
  ∃ unit request txnId, FrameCodec.unwrapTcp (.ofList bytes) = .ok (.value (unit, request, txnId)) ∧
    server.Addressed unit

theorem processOne_takes {s : Serving σ τ} {net : τ}
    (hreceive : T.receive 10 s.net = .ok (.value bytes, net))
    (hunwrap : FrameCodec.unwrapTcp (.ofList bytes) = .ok (.value (unit, request, txnId)))
    (hunit : server.Addressed unit) :
    server.processOne T s = do
      let s ← server.handleRequest T request txnId { s with net }
      return (true, s) := by
  have hours : ¬(unit ≠ server.unitId ∧ unit ≠ 0) := by
    rintro ⟨hne, hne'⟩; exact hunit.elim hne hne'
  simp only [processOne, hreceive, hunwrap, ok_bind, hours, if_false]

/-- A frame that decodes to no request for the server is left at that. -/
theorem processOne_leaves {s : Serving σ τ} {net : τ} {decoded : Result (UInt8 × PDU × UInt16)}
    (hreceive : T.receive 10 s.net = .ok (.value bytes, net))
    (hunwrap : FrameCodec.unwrapTcp (.ofList bytes) = .ok decoded) (hno : ¬server.Takes bytes) :
    server.processOne T s = .ok (false, { s with net }) := by
  cases decoded with
  | failure ec => simp [processOne, hreceive, hunwrap]
  | value decoded =>
    obtain ⟨unit, request, txnId⟩ := decoded
    have hunit : ¬server.Addressed unit := fun hunit => hno ⟨unit, request, txnId, hunwrap, hunit⟩
    have htheirs : unit ≠ server.unitId ∧ unit ≠ 0 := not_or.mp hunit
    simp [processOne, hreceive, hunwrap, htheirs]

variable {s s' : Serving σ (τ × List TransportEvent)} {response : Option PDU}

/-- The frames that carry a response. -/
def frames (server : Server σ) (txnId : UInt16) (response : Option PDU) : List (List UInt8) :=
  (response.map fun pdu => FrameCodec.wrapTcp server.unitId pdu txnId).toList

theorem respond_traced (h : server.respond T.traced txnId s response = .ok s') :
    s'.calls = s.calls ∧
    sentFrames s'.net.2 = sentFrames s.net.2 ++ server.frames txnId response := by
  cases response with
  | none =>
    cases h
    exact ⟨rfl, (List.append_nil _).symm⟩
  | some pdu =>
    obtain ⟨⟨sent, net⟩, hsend, h⟩ := bind_eq_ok.mp h
    cases h
    have htrace := (Transport.traced_send hsend).2
    exact ⟨rfl, by simp [htrace, frames]⟩

theorem respond_returns (server : Server σ) (T : Transport τ) (txnId : UInt16)
    (s : Serving σ (τ × List TransportEvent)) (response : Option PDU) :
    (∃ s', server.respond T.traced txnId s response = .ok s') ∨
      ∃ frame fault, T.send frame s.net.1 = .error fault := by
  cases response with
  | none => exact .inl ⟨s, rfl⟩
  | some pdu =>
    cases hsend : T.send (FrameCodec.wrapTcp server.unitId pdu txnId) s.net.1 with
    | error fault => exact .inr ⟨_, fault, hsend⟩
    | ok sent =>
      refine .inl
        ⟨{ s with net :=
          (sent.2, s.net.2 ++ [.sent (FrameCodec.wrapTcp server.unitId pdu txnId) sent.1]) }, ?_⟩
      simp only [respond, reply, Transport.traced, hsend, ok_bind, pure_eq_ok]

theorem Handles.net_eq {s s₁ : Serving σ τ} (h : Handles server request s response s₁) :
    s₁.net = s.net := by
  cases h with
  | dropped => rfl
  | answered => rfl

theorem traced_received {net : τ} (hreceive : T.receive 10 s.net.1 = .ok (.value bytes, net)) :
    T.traced.receive 10 s.net = .ok (.value bytes, net, s.net.2 ++ [.received (.value bytes)]) := by
  simp only [Transport.traced, hreceive, ok_bind, pure_eq_ok]

theorem processOne_traced {net : τ} (hreceive : T.receive 10 s.net.1 = .ok (.value bytes, net))
    (hunwrap : FrameCodec.unwrapTcp (.ofList bytes) = .ok (.value (unit, request, txnId)))
    (hunit : server.Addressed unit) :
    ∃ response s₁, Handles server request
      { s with net := (net, s.net.2 ++ [.received (.value bytes)]) } response s₁ ∧
      server.processOne T.traced s = do
        let s ← server.respond T.traced txnId s₁ response
        return (true, s) := by
  obtain ⟨response, s₁, hhandles, hrequest⟩ := handleRequest_handles T.traced txnId server request
    { s with net := (net, s.net.2 ++ [.received (.value bytes)]) }
  exact ⟨response, s₁, hhandles,
    by rw [processOne_takes (traced_received hreceive) hunwrap hunit, hrequest]⟩

section outcome

variable {net : τ} {s₁ : Serving σ (τ × List TransportEvent)}
  (hhandles : Handles server request { s with net := (net, s.net.2 ++ [.received (.value bytes)]) }
    response s₁)
  (hturn : server.processOne T.traced s = do
    let s ← server.respond T.traced txnId s₁ response
    return (true, s))

include hhandles hturn

theorem turn_returns :
    (∃ r, server.processOne T.traced s = .ok r) ∨
    ∃ frame fault, T.send frame net = .error fault := by
  rcases respond_returns server T txnId s₁ response with ⟨s', hrespond⟩ | hfault
  · exact .inl ⟨_, by rw [hturn, hrespond, ok_bind, pure_eq_ok]⟩
  · rw [hhandles.net_eq] at hfault
    exact .inr hfault

theorem turn_outcome {handled : Bool} {s' : Serving σ (τ × List TransportEvent)}
    (h : server.processOne T.traced s = .ok (handled, s')) :
    handled = true ∧ s'.calls = s₁.calls ∧
      sentFrames s'.net.2 = sentFrames s.net.2 ++ server.frames txnId response := by
  rw [hturn] at h
  obtain ⟨s'', hrespond, h⟩ := bind_eq_ok.mp h
  cases h
  obtain ⟨hcalls, hsent⟩ := respond_traced hrespond
  refine ⟨rfl, hcalls, ?_⟩
  rw [hsent, hhandles.net_eq, sentFrames_append, sentFrames_received, sentFrames_nil,
    List.append_nil]

end outcome

end turn

/-! ### Reply discipline -/

/-- A frame of the server under the transaction id of the received one, with its function
code, or with bit 7 set in it if the read handler failed. -/
def ResponseTo (server : Server σ) (bytes : List UInt8) (made : List HandlerCall)
    (frame : List UInt8) : Prop :=
  frame.take 2 = bytes.take 2 ∧ frame[6]? = some server.unitId ∧
    (frame[7]? = bytes[7]? ∨
      frame[7]? = bytes[7]?.map (· ||| 0x80) ∧ ∃ call, made = [call] ∧ ReadRefused call)

theorem unwrapTcp_fields {bytes : List UInt8} {unit : UInt8} {request : PDU} {txnId : UInt16}
    (hlen : FrameCodec.lengthField bytes ≠ 0)
    (h : FrameCodec.unwrapTcp (.ofList bytes) = .ok (.value (unit, request, txnId))) :
    bytes.take 2 = [hiByte txnId, loByte txnId] ∧ bytes[7]? = some request.functionCode.byte := by
  rw [FrameCodec.unwrapTcp_eq fun _ => hlen, Except.ok.injEq] at h
  split_ifs at h with hok
  · cases hparse : PDU.parse (FrameCodec.pduSlice bytes) with
    | failure ec =>
      rw [hparse] at h
      cases h
    | value pdu =>
      rw [hparse] at h
      cases h
      match bytes, hok.1 with
      | t₁ :: t₀ :: p₁ :: p₀ :: l₁ :: l₀ :: u :: f :: rest, _ =>
        refine ⟨by simp, ?_⟩
        -- the slice starts with the function code, unless it is empty
        rw [FrameCodec.pduSlice] at hparse
        cases hsize : (FrameCodec.lengthField
          (t₁ :: t₀ :: p₁ :: p₀ :: l₁ :: l₀ :: u :: f :: rest)).toNat - 1 with
        | zero =>
          rw [hsize, List.take_zero] at hparse
          cases hparse
        | succ n =>
          rw [hsize, List.drop_succ_cons, List.drop_succ_cons, List.drop_succ_cons,
            List.drop_succ_cons, List.drop_succ_cons, List.drop_succ_cons, List.drop_succ_cons,
            List.drop_zero, List.take_succ_cons] at hparse
          rw [(PDU.parse_shape hparse).1]
          rfl
  · cases h

/-- Whatever the bytes and the handlers, a turn makes at most one handler call and sends
at most one frame, its response; a frame that holds no request for the server leaves both
undone. Only the transport's own send can keep the turn from returning. -/
theorem processOne_disciplined (server : Server σ) (T : Transport τ)
    {s : Serving σ (τ × List TransportEvent)} {bytes : List UInt8} {net : τ}
    (hreceive : T.receive 10 s.net.1 = .ok (.value bytes, net))
    (hlen : FrameCodec.lengthField bytes ≠ 0) :
    ((∃ r, server.processOne T.traced s = .ok r) ∨ ∃ frame fault, T.send frame net = .error fault) ∧
    ∀ handled s', server.processOne T.traced s = .ok (handled, s') →
      (handled = true ↔ server.Takes bytes) ∧
      ∃ made frames, s'.calls = s.calls ++ made ∧
        sentFrames s'.net.2 = sentFrames s.net.2 ++ frames ∧
        made.length ≤ 1 ∧ frames.length ≤ 1 ∧
        (∀ frame ∈ frames, server.ResponseTo bytes made frame) ∧
        (handled = false → made = [] ∧ frames = []) := by
  have hdecodes : ∃ decoded, FrameCodec.unwrapTcp (.ofList bytes) = .ok decoded :=
    ⟨_, FrameCodec.unwrapTcp_eq fun _ => hlen⟩
  by_cases htakes : server.Takes bytes
  · obtain ⟨unit, request, txnId, hunwrap, hunit⟩ := htakes
    obtain ⟨htxn, hcode⟩ := unwrapTcp_fields hlen hunwrap
    obtain ⟨response, s₁, hhandles, hturn⟩ := processOne_traced hreceive hunwrap hunit
    refine ⟨turn_returns hhandles hturn, fun handled s' h => ?_⟩
    obtain ⟨rfl, hcalls, hsent⟩ := turn_outcome hhandles hturn h
    refine ⟨iff_of_true rfl ⟨unit, request, txnId, hunwrap, hunit⟩, ?_⟩
    cases hhandles with
    | dropped hno => exact ⟨[], [], by simp [hcalls], hsent, by simp, by simp, by simp, by simp⟩
    | @answered call device fc data hyes hfc =>
      refine ⟨[call], _, hcalls, hsent, le_rfl, le_rfl, ?_, by simp⟩
      rintro frame hframe
      obtain rfl := List.mem_singleton.mp hframe
      refine ⟨by rw [htxn]; rfl, rfl, ?_⟩
      rw [hcode]
      rcases hfc with hfc | ⟨hfc, hrefused⟩
      · exact .inl (congrArg some hfc)
      · exact .inr ⟨congrArg some hfc, call, rfl, hrefused⟩
  · obtain ⟨decoded, hunwrap⟩ := hdecodes
    have hturn := processOne_leaves (traced_received hreceive) hunwrap htakes
    refine ⟨.inl ⟨_, hturn⟩, fun handled s' h => ?_⟩
    rw [hturn] at h
    cases h
    exact ⟨iff_of_false (by simp) htakes, [], [], by simp, by simp, by simp, by simp,
      by simp, by simp⟩

/-- A server of unit 1 with no data behind it: reads are refused, writes accepted. -/
def bare : Server Unit where
  readHandler := some fun _ _ device => (.fail .illegalDataAddress, device)
  writeHandler := some fun _ _ device => (.ok, device)

/-- A server's start, with one frame to receive. -/
def receiving (frame : List UInt8) : Serving Unit (List (List UInt8) × List TransportEvent) :=
  ⟨([frame], []), (), []⟩

/-- A refused read: one call and one exception response. -/
theorem processOne_disciplined_refused :
    ∃ s', bare.processOne Transport.replies.traced
      (receiving [0, 9, 0, 0, 0, 6, 1, 3, 0, 0, 0, 1]) = .ok (true, s') ∧
      ∃ made frames, s'.calls = made ∧ sentFrames s'.net.2 = frames ∧
        made.length ≤ 1 ∧ frames.length ≤ 1 ∧
        ∀ frame ∈ frames, bare.ResponseTo [0, 9, 0, 0, 0, 6, 1, 3, 0, 0, 0, 1] made frame := by
  obtain ⟨-, hturn⟩ := processOne_disciplined bare Transport.replies
    (s := receiving [0, 9, 0, 0, 0, 6, 1, 3, 0, 0, 0, 1]) rfl (by decide)
  obtain ⟨-, made, frames, hcalls, hsent, hmade, hframes, hresponse, -⟩ := hturn true _ rfl
  exact ⟨_, rfl, made, frames, hcalls, hsent, hmade, hframes, hresponse⟩

/-! ### Requests without an answer -/

/-- One frame went out, under the transaction id, with the function code of the request or
with bit 7 set. -/
def AnsweredOnce (request : PDU) (txnId : UInt16)
    (s s' : Serving σ (τ × List TransportEvent)) : Prop :=
  ∃ frame fc, sentFrames s'.net.2 = sentFrames s.net.2 ++ [frame] ∧
    frame.take 2 = [hiByte txnId, loByte txnId] ∧ frame[7]? = some fc ∧
    (fc = request.functionCode.byte ∨ FunctionCode.IsException ⟨fc⟩)

theorem isException_or (b : UInt8) : FunctionCode.IsException ⟨b ||| 0x80⟩ := by
  have hbit : (b ||| 0x80) &&& 0x80 = 0x80 := by
    apply UInt8.toBitVec_inj.mp
    ext i
    simp
    tauto
  rw [FunctionCode.IsException, hbit]
  decide

/-- A request to the server's own unit is answered exactly if the server supports it. -/
theorem processOne_answers_iff (server : Server σ) (T : Transport τ)
    {s : Serving σ (τ × List TransportEvent)} {bytes : List UInt8} {net : τ}
    {request : PDU} {txnId : UInt16} (hreceive : T.receive 10 s.net.1 = .ok (.value bytes, net))
    (hunwrap : FrameCodec.unwrapTcp (.ofList bytes) =
      .ok (.value (server.unitId, request, txnId))) :
    ((∃ r, server.processOne T.traced s = .ok r) ∨ ∃ frame fault, T.send frame net = .error fault) ∧
    ((∀ handled s', server.processOne T.traced s = .ok (handled, s') →
      AnsweredOnce request txnId s s') ↔
      server.Supports request) := by
  obtain ⟨response, s₁, hhandles, hturn⟩ := processOne_traced hreceive hunwrap (.inl rfl)
  refine ⟨turn_returns hhandles hturn, ?_, ?_⟩
  · intro hanswers
    by_contra hno
    cases hhandles with
    | answered hyes => exact hno hyes
    | dropped =>
      obtain ⟨frame, fc, hsent, -⟩ := hanswers true _ hturn
      have hnone := (turn_outcome (.dropped hno) hturn hturn).2.2
      rw [hnone] at hsent
      simp [frames] at hsent
  · intro hyes handled s' h
    obtain ⟨-, -, hsent⟩ := turn_outcome hhandles hturn h
    cases hhandles with
    | dropped hno => exact absurd hyes hno
    | @answered call device fc data _ hfc =>
      refine ⟨_, fc.byte, hsent, rfl, rfl, hfc.imp_right ?_⟩
      rintro ⟨hbyte, -⟩
      rw [hbyte]
      exact isException_or _

/-- A single write: its echo is the one answer. -/
theorem processOne_answers_write :
    ∃ s', bare.processOne Transport.replies.traced
        (receiving (Client.requestFrame {} 1 (Client.writeSingleRequest 3 7))) = .ok (true, s') ∧
      AnsweredOnce (Client.writeSingleRequest 3 7) 1
        (receiving (Client.requestFrame {} 1 (Client.writeSingleRequest 3 7))) s' := by
  have hunwrap :
    FrameCodec.unwrapTcp (.ofList (Client.requestFrame {} 1 (Client.writeSingleRequest 3 7))) =
      .ok (.value (bare.unitId, Client.writeSingleRequest 3 7, 1)) := rfl
  exact ⟨_, rfl, (processOne_answers_iff bare Transport.replies rfl hunwrap).2.mpr
    (by decide) true _ rfl⟩

/-- The client's batch read of one register, without a timestamp. -/
def oneBatchRead : PDU :=
  Client.batchReadRequest { enableTimestamps := false } ⟨0⟩ ⟨[⟨0, 1, ⟨0⟩, ⟨0⟩⟩]⟩

/-- The server takes the batch read, and sends nothing. -/
theorem batchRead_not_answered :
    FrameCodec.unwrapTcp (.ofList (Client.requestFrame {} 1 oneBatchRead)) =
      .ok (.value (bare.unitId, oneBatchRead, 1)) ∧
    ¬∀ handled s',
      bare.processOne Transport.replies.traced (receiving (Client.requestFrame {} 1 oneBatchRead)) =
        .ok (handled, s') →
      AnsweredOnce oneBatchRead 1 (receiving (Client.requestFrame {} 1 oneBatchRead)) s' := by
  refine ⟨rfl, fun hanswers => ?_⟩
  obtain ⟨frame, fc, hsent, -⟩ := hanswers true _ rfl
  have hnone : ([] : List (List UInt8)) = [] ++ [frame] := hsent
  cases hnone

end Server

end ModbusPp

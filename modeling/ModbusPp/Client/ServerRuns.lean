import ModbusPp.Client.AgainstServer
import ModbusPp.Foundation.Run

/-! Whole runs of a client against a server. An operation whose request has a
length field other than zero always returns, calls at most one handler and leaves
nothing under way, so over the loopback pair no answer is ever late. -/

namespace ModbusPp

open Foundation

namespace Server

variable {σ : Type} {server : Server σ} {txnId : UInt16} {device : σ} {calls : List HandlerCall}

/-- The response can be framed without its length field becoming zero. -/
def Framed (response : PDU) : Prop := (1 + response.serialize.length) % 65536 ≠ 0

/-- What a request leaves behind: the handler calls made, one at most, and either
nothing under way or one answer to the client. -/
def Handled (server : Server σ) (txnId : UInt16) (calls : List HandlerCall)
    (s : Serving σ Loopback) : Prop :=
  ∃ device' made, made.length ≤ 1 ∧
    (s = quiet device' (calls ++ made) ∨ ∃ response, Framed response ∧
    s = answered (FrameCodec.wrapTcp server.unitId response txnId) device' (calls ++ made))

theorem handled_dropped : Handled server txnId calls (quiet device calls) :=
  ⟨device, [], Nat.zero_le _, Or.inl (by rw [List.append_nil])⟩

theorem handled_reply (call : HandlerCall) (device' : σ) {response : PDU}
    (hframed : Framed response) :
    ∃ s, server.reply Loopback.serverEnd response txnId (quiet device' (calls ++ [call])) = .ok s ∧
      Handled server txnId calls s :=
  ⟨_, rfl, device', [call], le_rfl, Or.inr ⟨response, hframed, rfl⟩⟩

theorem framed_of_short {fc : FunctionCode} {data : List UInt8} (h : data.length ≤ 4) :
    Framed (.makeStandard fc data) := by
  simp only [Framed, PDU.makeStandard, PDU.serialize, List.length_cons]
  omega

theorem framed_registers (regs : List UInt16) : Framed (registersResponse regs) := by
  simp only [Framed, registersResponse, PDU.makeStandard, PDU.serialize, List.length_cons,
    length_registerBytes]
  omega

theorem handleRead_handled (handler : ReadHandler σ) (request : PDU) :
    ∃ s, server.handleRead Loopback.serverEnd handler request txnId (quiet device calls) = .ok s ∧
      Handled server txnId calls s := by
  unfold handleRead
  split
  · rename_i a₁ a₀ c₁ c₀ rest _
    cases hverdict : (handler (word a₁ a₀) (word c₁ c₀) device).1 with
    | value regs =>
      simp only [quiet, hverdict]
      exact handled_reply _ _ (framed_registers regs)
    | failure ec =>
      simp only [quiet, hverdict]
      exact handled_reply _ _ (framed_of_short (by simp))
  · exact ⟨_, rfl, handled_dropped⟩

theorem handleWriteSingle_handled (handler : WriteHandler σ) (request : PDU) :
    ∃ s, server.handleWriteSingle Loopback.serverEnd handler request txnId
      (quiet device calls) = .ok s ∧
      Handled server txnId calls s := by
  unfold handleWriteSingle
  split
  · exact handled_reply _ _ (framed_of_short (by simp))
  · exact ⟨_, rfl, handled_dropped⟩

theorem handleWriteMultiple_handled (handler : WriteHandler σ) (request : PDU) :
    ∃ s, server.handleWriteMultiple Loopback.serverEnd handler request txnId
      (quiet device calls) = .ok s ∧
      Handled server txnId calls s := by
  unfold handleWriteMultiple
  split
  · exact handled_reply _ _ (framed_of_short (by simp))
  · exact ⟨_, rfl, handled_dropped⟩

theorem handleRequest_handled (request : PDU) :
    ∃ s, server.handleRequest Loopback.serverEnd request txnId (quiet device calls) = .ok s ∧
      Handled server txnId calls s := by
  unfold handleRequest
  split_ifs
  · cases server.readHandler with
    | none => exact ⟨_, rfl, handled_dropped⟩
    | some handler => exact handleRead_handled handler request
  · cases server.writeHandler with
    | none => exact ⟨_, rfl, handled_dropped⟩
    | some handler => exact handleWriteSingle_handled handler request
  · cases server.writeHandler with
    | none => exact ⟨_, rfl, handled_dropped⟩
    | some handler => exact handleWriteMultiple_handled handler request
  · exact ⟨_, rfl, handled_dropped⟩

theorem processOne_handled (server : Server σ) (device : σ)
    (calls : List HandlerCall) (unit : UInt8) (request : PDU)
    (txnId : UInt16) (hframed : Framed request) :
    ∃ b s, server.processOne Loopback.serverEnd
      (asked (FrameCodec.wrapTcp unit request txnId) device calls) =
      .ok (b, s) ∧ Handled server txnId calls s := by
  have hunwrap := FrameCodec.unwrapTcp_wrapTcp unit request txnId hframed
  cases hparse :
    PDU.parse (request.serialize.take ((1 + request.serialize.length) % 65536 - 1)) with
  | failure ec =>
    rw [hparse] at hunwrap
    exact ⟨false, _, processOne_rejected hunwrap, handled_dropped⟩
  | value pdu =>
    rw [hparse, Result.andThen_value] at hunwrap
    by_cases hunit : server.Addressed unit
    · obtain ⟨s, hhandle, hhandled⟩ := handleRequest_handled pdu
      exact ⟨true, s, processOne_addressed hunwrap hunit hhandle, hhandled⟩
    · exact ⟨false, _, processOne_unaddressed hunwrap hunit, handled_dropped⟩

end Server

namespace Operation

variable {σ : Type} (server : Server σ) (extra : ℕ)

/-- Nothing is under way between client and server. -/
def Quiet (s : Running (Serving σ Loopback)) : Prop := s.net.net = .connectedPair

/-- The length field of the operation's request is not zero. -/
def Framed (op : Operation) (s : Running (Serving σ Loopback)) : Prop :=
  Server.Framed (op.request s.client.config)

/-- One operation: what it returns, and the handler calls it caused. -/
def call (op : Operation) (s : Running (Serving σ Loopback)) :
    Checked ((Outcome × List HandlerCall) × Running (Serving σ Loopback)) := do
  let (out, s') ← op.run (server.across extra) s
  return ((out, s'.net.calls.drop s.net.calls.length), s')

theorem decodeResponse_framed {response : PDU} (hframed : Server.Framed response)
    (unitId : UInt8) (txnId : UInt16) :
    ∃ result, Client.decodeResponse (FrameCodec.wrapTcp unitId response txnId) = .ok result := by
  rw [Client.decodeResponse, FrameCodec.unwrapTcp_wrapTcp _ _ _ hframed]
  cases PDU.parse (response.serialize.take ((1 + response.serialize.length) % 65536 - 1)) <;>
    exact ⟨_, rfl⟩

theorem call_eq {op : Operation} {client client' : Client} {device device' : σ}
    {calls made : List HandlerCall} {out : Outcome}
    (hrun : op.run (server.across extra) ⟨client, Server.quiet device calls⟩ =
      .ok (out, ⟨client', Server.quiet device' (calls ++ made)⟩)) :
    op.call server extra ⟨client, Server.quiet device calls⟩ =
      .ok ((out, made), ⟨client', Server.quiet device' (calls ++ made)⟩) := by
  rw [call, hrun, ok_bind]
  simp only [Server.quiet, List.drop_left, pure_eq_ok]

theorem call_quiet (op : Operation) (s : Running (Serving σ Loopback))
    (hquiet : Quiet s) (hframed : op.Framed s) :
    ∃ r s', op.call server extra s = .ok (r, s') ∧ Quiet s' ∧ r.2.length ≤ 1 := by
  obtain ⟨client, net, device, calls⟩ := s
  obtain rfl : net = .connectedPair := hquiet
  obtain ⟨b, t, hturn, device', made, hmade, rfl | ⟨response, hresponse, rfl⟩⟩ :=
    Server.processOne_handled server device calls op.unit (op.request client.config)
      client.nextTransactionId hframed
  · obtain ⟨out, hfinish⟩ := op.finish_total (.fail .timeoutExpired)
    exact ⟨_, _, call_eq server extra (run_unanswered hturn hfinish), rfl, hmade⟩
  · obtain ⟨result, hdecode⟩ :=
      decodeResponse_framed hresponse server.unitId client.nextTransactionId
    obtain ⟨out, hfinish⟩ := op.finish_total result
    exact ⟨_, _, call_eq server extra (run_answered hturn hdecode hfinish), rfl, hmade⟩

/-- In every run of framed requests every operation returns, calls at most one
handler and leaves nothing under way. -/
theorem runAll_quiet (client : Client) (device : σ) (ops : List Operation)
    (hframed : Guarded (call server extra) Framed ops ⟨client, Server.quiet device []⟩) :
    ∃ results s', runAll (call server extra) ops ⟨client, Server.quiet device []⟩ =
      .ok (results, s') ∧
      Quiet s' ∧ results.length = ops.length ∧ ∀ r ∈ results, r.2.length ≤ 1 :=
  runAll_of_guarded Quiet _ (call_quiet server extra) ops
    (show Quiet ⟨client, Server.quiet device []⟩ from rfl) hframed

end Operation

end ModbusPp

import ModbusPp.Client.Operation
import ModbusPp.Client.Server
import ModbusPp.Transport.Loopback

/-! A client against a server over the loopback pair. While the client's receive
waits, the server takes some turns of its loop, one at least. Every operation is
then one turn of the server on the frame the client sent. -/

namespace ModbusPp

open Foundation

namespace Server

variable {σ : Type} (server : Server σ)

/-- Turns of the server's loop. -/
def turns : ℕ → Serving σ Loopback → Checked (Serving σ Loopback)
  | 0, s => return s
  | n + 1, s => do
    let (_, s) ← server.processOne Loopback.serverEnd s
    turns n s

/-- The client's transport with the server behind it, which takes `extra` turns
more than one in each receive. -/
def across (extra : ℕ) : Transport (Serving σ Loopback) where
  send frame s := do
    let (r, net) ← Loopback.clientEnd.send frame s.net
    return (r, { s with net })
  receive timeout s := do
    let s ← server.turns (extra + 1) s
    let (r, net) ← Loopback.clientEnd.receive timeout s.net
    return (r, { s with net })

/-- Nothing is under way. -/
def quiet (device : σ) (calls : List HandlerCall) : Serving σ Loopback :=
  ⟨.connectedPair, device, calls⟩

/-- One frame is under way to the server. -/
def asked (frame : List UInt8) (device : σ) (calls : List HandlerCall) : Serving σ Loopback :=
  ⟨{ Loopback.connectedPair with toServer := [frame] }, device, calls⟩

/-- One frame is under way to the client. -/
def answered (frame : List UInt8) (device : σ) (calls : List HandlerCall) : Serving σ Loopback :=
  ⟨{ Loopback.connectedPair with toClient := [frame] }, device, calls⟩

variable {server} {device device' : σ} {calls calls' : List HandlerCall}
  {frame answer : List UInt8} {b : Bool}
  {s' : Serving σ Loopback}

/-! ### One turn -/

/-- Without a request a turn changes nothing. -/
theorem turns_idle (n : ℕ) {s : Serving σ Loopback}
    (hup : s.net.server = ({} : LoopbackEndpoint).connect) (hempty : s.net.toServer = []) :
    server.turns n s = .ok s := by
  induction n with
  | zero => rfl
  | succ n ih =>
    have hturn : server.processOne Loopback.serverEnd s = .ok (false, s) := by
      obtain ⟨⟨client, server', toServer, toClient⟩, device, calls⟩ := s
      subst hup hempty
      rfl
    rw [turns, hturn, ok_bind]
    exact ih

section processOne

variable {unit : UInt8} {pdu : PDU} {txnId : UInt16}

theorem processOne_asked (frame : List UInt8) (device : σ) (calls : List HandlerCall) :
    server.processOne Loopback.serverEnd (asked frame device calls) = (do
      match ← FrameCodec.unwrapTcp (.ofList frame) with
      | .failure _ => return (false, quiet device calls)
      | .value (unit, pdu, txnId) =>
        if unit ≠ server.unitId ∧ unit ≠ 0 then return (false, quiet device calls)
        let s ← server.handleRequest Loopback.serverEnd pdu txnId (quiet device calls)
        return (true, s)) := rfl

theorem processOne_rejected {ec : StdErrorCode}
    (h : FrameCodec.unwrapTcp (.ofList frame) = .ok (.failure ec)) :
    server.processOne Loopback.serverEnd (asked frame device calls) =
      .ok (false, quiet device calls) := by
  simp [processOne_asked, h]

theorem processOne_unaddressed
    (h : FrameCodec.unwrapTcp (.ofList frame) = .ok (.value (unit, pdu, txnId)))
    (hunit : ¬server.Addressed unit) :
    server.processOne Loopback.serverEnd (asked frame device calls) =
      .ok (false, quiet device calls) := by
  simp [processOne_asked, h, not_or.mp hunit]

theorem processOne_addressed
    (h : FrameCodec.unwrapTcp (.ofList frame) = .ok (.value (unit, pdu, txnId)))
    (hunit : server.Addressed unit) {s : Serving σ Loopback}
    (hhandle : server.handleRequest Loopback.serverEnd pdu txnId (quiet device calls) = .ok s) :
    server.processOne Loopback.serverEnd (asked frame device calls) = .ok (true, s) := by
  have htaken : ¬(unit ≠ server.unitId ∧ unit ≠ 0) := by
    rintro ⟨h₁, h₂⟩
    exact hunit.elim h₁ h₂
  simp [processOne_asked, h, htaken, hhandle]

end processOne

/-! ### The handlers at work -/

section handlers

variable (txnId : UInt16) (device calls)

/-- The answer to a read is the handler's verdict. -/
def readAnswer : Result (List UInt16) → PDU
  | .value regs => registersResponse regs
  | .failure ec => exceptionResponse .readHoldingRegisters ec

theorem handleRequest_read {handler : ReadHandler σ}
    (hread : server.readHandler = some handler) (addr count : UInt16) :
    server.handleRequest Loopback.serverEnd (Client.readHoldingRequest addr count)
      txnId (quiet device calls) =
      .ok (answered
        (FrameCodec.wrapTcp server.unitId (readAnswer (handler addr count device).1) txnId)
        (handler addr count device).2
          (calls ++ [.read addr count (handler addr count device).1])) := by
  rw [handleRequest_of_read hread rfl]
  simp only [handleRead, Client.readHoldingRequest, PDU.makeStandard, word_bytes]
  cases hverdict : (handler addr count device).1 <;> simp only [quiet, hverdict] <;> rfl

/-- The answer to a single write is its echo, whatever the handler says. -/
theorem handleRequest_writeSingle {handler : WriteHandler σ}
    (hwrite : server.writeHandler = some handler) (addr value : UInt16) :
    server.handleRequest Loopback.serverEnd (Client.writeSingleRequest addr value)
      txnId (quiet device calls) =
      .ok (answered (FrameCodec.wrapTcp server.unitId (Client.writeSingleRequest addr value) txnId)
        (handler addr [value] device).2
          (calls ++ [.write addr [value] (handler addr [value] device).1])) := by
  rw [handleRequest_of_writeSingle hwrite rfl]
  simp only [handleWriteSingle, Client.writeSingleRequest, PDU.makeStandard, word_bytes]
  rfl

/-- The answer to a multiple write is its address and count, whatever the handler
says of the registers that arrived. -/
theorem handleRequest_writeMultiple {handler : WriteHandler σ}
    (hwrite : server.writeHandler = some handler) (addr count : UInt16)
    (byteCount : UInt8) (data : List UInt8) :
    server.handleRequest Loopback.serverEnd (.makeStandard .writeMultipleRegisters
        (hiByte addr :: loByte addr :: hiByte count :: loByte count :: byteCount :: data)) txnId
          (quiet device calls) =
      .ok (answered (FrameCodec.wrapTcp server.unitId (.makeStandard .writeMultipleRegisters
          [hiByte addr, loByte addr, hiByte count, loByte count]) txnId)
        (handler addr (registersOf data) device).2
        (calls ++ [.write addr (registersOf data)
          (handler addr (registersOf data) device).1])) := by
  rw [handleRequest_of_writeMultiple hwrite rfl]
  simp only [handleWriteMultiple, PDU.makeStandard, word_bytes]
  rfl

/-- A multiple write cut before its registers is dropped. -/
theorem handleRequest_writeMultiple_cut {handler : WriteHandler σ}
    (hwrite : server.writeHandler = some handler) {data : List UInt8} (hcut : data.length < 5) :
    server.handleRequest Loopback.serverEnd (.makeStandard .writeMultipleRegisters data)
      txnId (quiet device calls) =
      .ok (quiet device calls) := by
  rw [handleRequest_of_writeMultiple hwrite rfl]
  match data with
  | [] | [_] | [_, _] | [_, _, _] | [_, _, _, _] => rfl
  | _ :: _ :: _ :: _ :: _ :: _ => simp at hcut; omega

end handlers

section receive

variable {extra timeout : ℕ} {s : Serving σ Loopback}

theorem across_receive (timeout : ℕ) (hturn : server.processOne Loopback.serverEnd s = .ok (b, s'))
    (hup : s'.net.server = ({} : LoopbackEndpoint).connect) (hempty : s'.net.toServer = []) :
    (server.across extra).receive timeout s = (do
      let (r, net) ← Loopback.clientEnd.receive timeout s'.net
      return (r, { s' with net })) := by
  have hturns : server.turns (extra + 1) s = .ok s' := by
    rw [turns, hturn, ok_bind]
    exact turns_idle extra hup hempty
  simp only [across, hturns, ok_bind]

theorem across_receive_answered (timeout : ℕ)
    (hturn : server.processOne Loopback.serverEnd s = .ok (b, answered answer device' calls')) :
    (server.across extra).receive timeout s = .ok (.value answer, quiet device' calls') := by
  rw [across_receive timeout hturn rfl rfl]
  rfl

theorem across_receive_unanswered (timeout : ℕ)
    (hturn : server.processOne Loopback.serverEnd s = .ok (b, quiet device' calls')) :
    (server.across extra).receive timeout s =
      .ok (.fail .timeoutExpired, quiet device' calls') := by
  rw [across_receive timeout hturn rfl rfl]
  rfl

end receive

end Server

namespace Operation

variable {σ : Type} {server : Server σ} {extra : ℕ} {op : Operation}
  {client : Client} {device device' : σ}
  {calls calls' : List HandlerCall} {b : Bool} {out : Outcome}

theorem across_send (frame : List UInt8) :
    (server.across extra).send frame (Server.quiet device calls) =
      .ok (.ok, Server.asked frame device calls) := rfl

/-- An operation the server answers reads the answer, and nothing is left under way. -/
theorem run_answered {answer : List UInt8} {result : Result PDU}
    (hturn : server.processOne Loopback.serverEnd (Server.asked (op.frame client) device calls) =
      .ok (b, Server.answered answer device' calls'))
    (hdecode : Client.decodeResponse answer = .ok result) (hfinish : op.finish result = .ok out) :
    op.run (server.across extra) ⟨client, Server.quiet device calls⟩ =
      .ok (out, ⟨client.advance, Server.quiet device' calls'⟩) :=
  run_received (across_send _) rfl (Server.across_receive_answered _ hturn) hdecode hfinish

/-- An operation the server does not answer gives up. -/
theorem run_unanswered
    (hturn : server.processOne Loopback.serverEnd (Server.asked (op.frame client) device calls) =
      .ok (b, Server.quiet device' calls'))
    (hfinish : op.finish (.fail .timeoutExpired) = .ok out) :
    op.run (server.across extra) ⟨client, Server.quiet device calls⟩ =
      .ok (out, ⟨client.advance, Server.quiet device' calls'⟩) :=
  run_notReceived (across_send _) rfl (Server.across_receive_unanswered _ hturn) hfinish

/-- A server that is not addressed does not answer. -/
theorem run_unaddressed (extra : ℕ) (client : Client) (device : σ)
    (calls : List HandlerCall) {unit : UInt8} {pdu : PDU} {txnId : UInt16}
    (hrequest : FrameCodec.unwrapTcp (.ofList (op.frame client)) = .ok (.value (unit, pdu, txnId)))
    (hunit : ¬server.Addressed unit) (hfinish : op.finish (.fail .timeoutExpired) = .ok out) :
    op.run (server.across extra) ⟨client, Server.quiet device calls⟩ =
      .ok (out, ⟨client.advance, Server.quiet device calls⟩) :=
  run_unanswered (Server.processOne_unaddressed hrequest hunit) hfinish

end Operation

end ModbusPp

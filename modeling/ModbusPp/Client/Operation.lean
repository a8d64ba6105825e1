import ModbusPp.Client.Client

/-! The operations of the client as one family. Each is an exchange (`transact`)
of its own request, followed by its own reading of the result; what holds of
every exchange is then proved once. -/

namespace ModbusPp

open Foundation

/-- A call of the client; a batch read comes with its clock reading. -/
inductive Operation
  | transact (unit : UInt8) (request : PDU)
  | readHoldingRegisters (unit : UInt8) (addr count : UInt16)
  | writeSingleRegister (unit : UInt8) (addr value : UInt16)
  | writeMultipleRegisters (unit : UInt8) (addr : UInt16) (values : List UInt16)
  | batchRead (now : Timestamp) (unit : UInt8) (request : BatchRequest)

/-- What an operation returns. -/
inductive Outcome
  | pdu (r : Result PDU)
  | registers (r : Result (List UInt16))
  | done (r : VoidResult)
  | batch (r : Result BatchResponse)
  deriving DecidableEq

namespace Outcome

/-- The caller's test for success. -/
def hasValue : Outcome → Bool
  | pdu r => r.hasValue
  | registers r => r.hasValue
  | done r => r.hasValue
  | batch r => r.hasValue

def error : Outcome → StdErrorCode
  | pdu r => r.error
  | registers r => r.error
  | done r => r.error
  | batch r => r.error

end Outcome

namespace Operation

variable {τ : Type} (T : Transport τ)

def run (op : Operation) (s : Running τ) : Checked (Outcome × Running τ) :=
  match op with
  | transact unit request => do
    let (r, s) ← Client.transact T unit request s
    return (.pdu r, s)
  | readHoldingRegisters unit addr count => do
    let (r, s) ← Client.readHoldingRegisters T unit addr count s
    return (.registers r, s)
  | writeSingleRegister unit addr value => do
    let (r, s) ← Client.writeSingleRegister T unit addr value s
    return (.done r, s)
  | writeMultipleRegisters unit addr values => do
    let (r, s) ← Client.writeMultipleRegisters T unit addr values s
    return (.done r, s)
  | batchRead now unit request => do
    let (r, s) ← Client.batchRead T now unit request s
    return (.batch r, s)

def unit : Operation → UInt8
  | transact unit _ => unit
  | readHoldingRegisters unit _ _ => unit
  | writeSingleRegister unit _ _ => unit
  | writeMultipleRegisters unit _ _ => unit
  | batchRead _ unit _ => unit

def request (config : ClientConfig) : Operation → PDU
  | transact _ request => request
  | readHoldingRegisters _ addr count => Client.readHoldingRequest addr count
  | writeSingleRegister _ addr value => Client.writeSingleRequest addr value
  | writeMultipleRegisters _ addr values => Client.writeMultipleRequest addr values
  | batchRead now _ request => Client.batchReadRequest config now request

/-- How an operation reads the result of its exchange. -/
def finish : Operation → Result PDU → Checked Outcome
  | transact _ _, r => return .pdu r
  | readHoldingRegisters _ _ _, r => return .registers (r.andThen Client.readResponse)
  | writeSingleRegister _ _ _, r => return .done (Client.writeResult r)
  | writeMultipleRegisters _ _ _, r => return .done (Client.writeResult r)
  | batchRead _ _ _, r => return .batch (← Client.batchReadResult r)

/-- The frame the operation sends. -/
def frame (op : Operation) (client : Client) : List UInt8 :=
  client.requestFrame op.unit (op.request client.config)

theorem run_eq (op : Operation) (s : Running τ) :
    op.run T s = do
      let (r, s) ← Client.transact T op.unit (op.request s.client.config) s
      return (← op.finish r, s) := by
  cases op with
  | transact => rfl
  | readHoldingRegisters =>
    simp only [run, Client.readHoldingRegisters, unit, request, finish, bind_assoc, pure_bind]
  | writeSingleRegister =>
    simp only [run, Client.writeSingleRegister, unit, request, finish, bind_assoc, pure_bind]
  | writeMultipleRegisters =>
    simp only [run, Client.writeMultipleRegisters, unit, request, finish, bind_assoc, pure_bind]
  | batchRead =>
    simp only [run, Client.batchRead, unit, request, finish, bind_assoc, pure_bind]

/-- The reading stays inside the payload: it always returns. -/
theorem finish_total (op : Operation) (r : Result PDU) : ∃ out, op.finish r = .ok out := by
  cases op with
  | batchRead now unit request =>
    cases r with
    | failure ec => exact ⟨_, rfl⟩
    | value pdu =>
      obtain ⟨res, hres⟩ := BatchResponse.deserialize_inside pdu.payload
      exact ⟨.batch res, by simp [finish, Client.batchReadResult, hres]⟩
  | _ => exact ⟨_, rfl⟩

/-- A failed exchange keeps its error code through the reading; whether it still
counts as a failure is another matter. -/
theorem finish_failure (op : Operation) (ec : StdErrorCode) :
    ∃ out, op.finish (.failure ec) = .ok out ∧ out.error = ec ∧
      (ec.value ≠ 0 → out.hasValue = false) := by
  cases op with
  | transact => exact ⟨_, rfl, rfl, fun _ => rfl⟩
  | readHoldingRegisters => exact ⟨_, rfl, rfl, fun _ => rfl⟩
  | batchRead => exact ⟨_, rfl, rfl, fun _ => rfl⟩
  | writeSingleRegister =>
    exact ⟨_, rfl, rfl,
      fun h => by simp [Outcome.hasValue, Client.writeResult, VoidResult.hasValue, StdErrorCode.isError, h]⟩
  | writeMultipleRegisters =>
    exact ⟨_, rfl, rfl,
      fun h => by simp [Outcome.hasValue, Client.writeResult, VoidResult.hasValue, StdErrorCode.isError, h]⟩

variable {T} {op : Operation} {s : Running τ} {net net' : τ} {sent : VoidResult}

/-- An operation whose exchange received a frame reads that frame. -/
theorem run_received (hsend : T.send (op.frame s.client) s.net = .ok (sent, net))
    (hsent : sent.hasValue = true) {bytes : List UInt8}
    (hrecv : T.receive s.client.config.defaultTimeout net = .ok (.value bytes, net'))
    {result : Result PDU} (hdecode : Client.decodeResponse bytes = .ok result) {out : Outcome}
    (hfinish : op.finish result = .ok out) : op.run T s = .ok (out, ⟨s.client.advance, net'⟩) := by
  rw [run_eq, Client.transact_received hsend hsent hrecv hdecode, ok_bind]
  simp only [hfinish, ok_bind, pure_eq_ok]

/-- An operation whose exchange received nothing fails with the receive's code. -/
theorem run_notReceived (hsend : T.send (op.frame s.client) s.net = .ok (sent, net))
    (hsent : sent.hasValue = true) {ec : StdErrorCode}
    (hrecv : T.receive s.client.config.defaultTimeout net = .ok (.failure ec, net'))
    {out : Outcome} (hfinish : op.finish (.failure ec) = .ok out) :
    op.run T s = .ok (out, ⟨s.client.advance, net'⟩) := by
  rw [run_eq, Client.transact_notReceived hsend hsent hrecv, ok_bind]
  simp only [hfinish, ok_bind, pure_eq_ok]

end Operation

end ModbusPp

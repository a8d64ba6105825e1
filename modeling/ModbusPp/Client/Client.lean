import ModbusPp.RegisterMap.BatchRequest
import ModbusPp.Security.Session
import ModbusPp.Transport.FrameCodec
import ModbusPp.Transport.Transport

/-! The client (`client.cpp`) over any transport. Every operation is one
`transact` and a reading of its result. The clock and the nonce generator are
arguments of the operations that use them. -/

namespace ModbusPp

open Foundation

structure ClientConfig where
  credentials : Option (UInt8 → Result (List UInt8)) := none
  enableTimestamps : Bool := true
  defaultTimeout : ℕ := 1000

structure Client where
  config : ClientConfig := {}
  session : Option Session := none
  nextTransactionId : UInt16 := 1

/-- A client and the state of its transport. -/
structure Running (τ : Type) where
  client : Client
  net : τ

namespace Client

variable {τ : Type} (T : Transport τ)

/-- What `transact` makes of a decoded response. -/
def responseResult (respPdu : PDU) : Result PDU :=
  if respPdu.functionCode.IsException then
    match respPdu.payload with
    | code :: _ => .failure (makeErrorCode ⟨code.toNat⟩)
    | [] => .fail .invalidFrame
  else .value respPdu

theorem responseResult_of_not {pdu : PDU} (h : ¬pdu.functionCode.IsException) :
    responseResult pdu = .value pdu :=
  if_neg h

theorem responseResult_exception_cons {pdu : PDU} (h : pdu.functionCode.IsException)
    {code : UInt8} {rest : List UInt8} (hpayload : pdu.payload = code :: rest) :
    responseResult pdu = .failure (makeErrorCode ⟨code.toNat⟩) := by
  rw [responseResult, if_pos h, hpayload]

/-- What `transact` makes of the received bytes. The response's unit and
transaction id are not looked at. -/
def decodeResponse (bytes : List UInt8) : Checked (Result PDU) := do
  match ← FrameCodec.unwrapTcp (.ofList bytes) with
  | .failure ec => return .failure ec
  | .value (_, respPdu, _) => return responseResult respPdu

/-- The frame `transact` sends. -/
def requestFrame (client : Client) (unit : UInt8) (request : PDU) : List UInt8 :=
  FrameCodec.wrapTcp unit request client.nextTransactionId

/-- `next_transaction_id_++`. -/
def advance (client : Client) : Client :=
  { client with nextTransactionId := client.nextTransactionId + 1 }

def transact (unit : UInt8) (request : PDU) (s : Running τ) : Checked (Result PDU × Running τ) := do
  let (sendResult, net) ← T.send (s.client.requestFrame unit request) s.net
  if !sendResult.hasValue then return (.failure sendResult.error, ⟨s.client.advance, net⟩)
  let (recvResult, net) ← T.receive s.client.config.defaultTimeout net
  match recvResult with
  | .failure ec => return (.failure ec, ⟨s.client.advance, net⟩)
  | .value bytes => return (← decodeResponse bytes, ⟨s.client.advance, net⟩)

theorem decodeResponse_value {bytes : List UInt8} {unitId : UInt8} {pdu : PDU} {txnId : UInt16}
    (h : FrameCodec.unwrapTcp (.ofList bytes) = .ok (.value (unitId, pdu, txnId))) :
    decodeResponse bytes = .ok (responseResult pdu) := by
  simp [decodeResponse, h]

section transact

variable {T} {unit : UInt8} {request : PDU} {s : Running τ} {sent : VoidResult} {net net' : τ}

theorem transact_notReceived
    (hsend : T.send (s.client.requestFrame unit request) s.net = .ok (sent, net))
    (hsent : sent.hasValue = true) {ec : StdErrorCode}
    (hrecv : T.receive s.client.config.defaultTimeout net = .ok (.failure ec, net')) :
    transact T unit request s = .ok (.failure ec, ⟨s.client.advance, net'⟩) := by
  simp [transact, hsend, hsent, hrecv]

theorem transact_received
    (hsend : T.send (s.client.requestFrame unit request) s.net = .ok (sent, net))
    (hsent : sent.hasValue = true) {bytes : List UInt8} {result : Result PDU}
    (hrecv : T.receive s.client.config.defaultTimeout net = .ok (.value bytes, net'))
    (hdecode : decodeResponse bytes = .ok result) :
    transact T unit request s = .ok (result, ⟨s.client.advance, net'⟩) := by
  simp [transact, hsend, hsent, hrecv, hdecode]

end transact

/-- What `read_holding_registers` makes of a response. The byte count is only
compared with the size; the registers run to the end of the payload. -/
def readResponse (pdu : PDU) : Result (List UInt16) :=
  match pdu.payload with
  | [] => .fail .invalidFrame
  | byteCount :: data =>
    if 1 + data.length < 1 + byteCount.toNat then .fail .invalidFrame else .value (registersOf data)

def readHoldingRequest (addr count : UInt16) : PDU :=
  PDU.makeStandard .readHoldingRegisters [hiByte addr, loByte addr, hiByte count, loByte count]

def readHoldingRegisters (unit : UInt8) (addr count : UInt16) (s : Running τ) :
    Checked (Result (List UInt16) × Running τ) := do
  let (result, s) ← transact T unit (readHoldingRequest addr count) s
  return (result.andThen readResponse, s)

/-- `if (!result) return result.error(); return Result<void>{};`. -/
def writeResult : Result PDU → VoidResult
  | .failure ec => ⟨ec⟩
  | .value _ => .ok

def writeSingleRequest (addr value : UInt16) : PDU :=
  PDU.makeStandard .writeSingleRegister [hiByte addr, loByte addr, hiByte value, loByte value]

def writeSingleRegister (unit : UInt8) (addr value : UInt16) (s : Running τ) :
    Checked (VoidResult × Running τ) := do
  let (result, s) ← transact T unit (writeSingleRequest addr value) s
  return (writeResult result, s)

/-- The request of `write_multiple_registers`: the count is cut to 16 bits and the
byte count to 8, the values are all there. -/
def writeMultipleRequest (addr : UInt16) (values : List UInt16) : PDU :=
  let count := UInt16.ofNat values.length
  let byteCount := UInt8.ofNat (count.toNat * 2)
  PDU.makeStandard .writeMultipleRegisters
    ([hiByte addr, loByte addr, hiByte count, loByte count, byteCount] ++ registerBytes values)

def writeMultipleRegisters (unit : UInt8) (addr : UInt16) (values : List UInt16) (s : Running τ) :
    Checked (VoidResult × Running τ) := do
  let (result, s) ← transact T unit (writeMultipleRequest addr values) s
  return (writeResult result, s)

/-- The request of `batch_read`; `now` is the clock reading. -/
def batchReadRequest (config : ClientConfig) (now : Timestamp) (request : BatchRequest) : PDU :=
  let timestamp := if config.enableTimestamps then some now else none
  PDU.makeExtended { extFunctionCode := .batchRead, timestamp } request.serialize

/-- What `batch_read` makes of the result of its exchange. -/
def batchReadResult : Result PDU → Checked (Result BatchResponse)
  | .failure ec => return .failure ec
  | .value pdu => BatchResponse.deserialize (.ofList pdu.payload)

def batchRead (now : Timestamp) (unit : UInt8) (request : BatchRequest) (s : Running τ) :
    Checked (Result BatchResponse × Running τ) := do
  let (result, s) ← transact T unit (batchReadRequest s.client.config now request) s
  return (← batchReadResult result, s)

def authChallengeRequest (clientNonce : Nonce) : PDU :=
  PDU.makeExtended { extFunctionCode := .authChallenge } clientNonce.toList

def authResponseRequest (clientResponse : HMACDigest) : PDU :=
  PDU.makeExtended { extFunctionCode := .authResponse } clientResponse.toList

/-- The last step of `authenticate`: the session of the server's confirmation. -/
def authenticateConfirm (sessionKey : List UInt8) (payload : List UInt8) : Result Session :=
  if h : payload.length < 24 then .fail .authenticationFailed
  else
    let token := Block.slice payload 0 16 (by omega)
    let expiry := Timestamp.deserialize (Block.slice payload 16 8 (by omega))
    .value (.create token sessionKey expiry)

/-- `authenticate` from the server's answer to the challenge on. -/
def authenticateRespond (compute : KeyedHash) (unit : UInt8)
    (sharedSecret : List UInt8) (clientNonce : Nonce) (payload : List UInt8)
    (s : Running τ) : Checked (Result Session × Running τ) := do
  if h : payload.length < 48 then return (.fail .authenticationFailed, s)
  else
    let serverNonce : Nonce := Block.slice payload 0 16 (by omega)
    let serverHmac : HMACDigest := Block.slice payload 16 32 (by omega)
    if computeAuthChallengeResponse compute clientNonce serverNonce sharedSecret ≠ serverHmac then
      return (.fail .hmacMismatch, s)
    let clientResponse := computeAuthResponse compute clientNonce serverNonce sharedSecret
    let (step4, s) ← transact T unit (authResponseRequest clientResponse) s
    match step4.andThen fun pdu => authenticateConfirm
        (deriveSessionKey compute clientNonce serverNonce sharedSecret) pdu.payload with
    | .failure ec => return (.failure ec, s)
    | .value session => return (.value session, { s with client.session := some session })

/-- `authenticate`; `clientNonce` is the nonce generated in this call. -/
def authenticate (compute : KeyedHash) (clientNonce : Nonce) (unit : UInt8) (s : Running τ) :
    Checked (Result Session × Running τ) := do
  match s.client.config.credentials with
  | none => return (.fail .authenticationFailed, s)
  | some getKey =>
    match getKey unit with
    | .failure ec => return (.failure ec, s)
    | .value sharedSecret =>
      let (step2, s) ← transact T unit (authChallengeRequest clientNonce) s
      match step2 with
      | .failure ec => return (.failure ec, s)
      | .value pdu => authenticateRespond T compute unit sharedSecret clientNonce pdu.payload s

end Client

end ModbusPp

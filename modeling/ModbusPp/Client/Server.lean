import ModbusPp.RegisterMap.BatchRequest
import ModbusPp.Transport.FrameCodec
import ModbusPp.Transport.Transport

/-! The server (`server.cpp`) over any transport. The handlers work on a device
state; a log of their calls, with the verdicts they gave, goes along with it. The
publisher, which sends nothing without subscriptions, is left out. -/

namespace ModbusPp

open Foundation

abbrev ReadHandler (σ : Type) := UInt16 → UInt16 → σ → Result (List UInt16) × σ

abbrev WriteHandler (σ : Type) := UInt16 → List UInt16 → σ → VoidResult × σ

/-- The configured unit id and the registered handlers. -/
structure Server (σ : Type) where
  unitId : UInt8 := 1
  readHandler : Option (ReadHandler σ) := none
  writeHandler : Option (WriteHandler σ) := none

inductive HandlerCall
  | read (addr count : UInt16) (verdict : Result (List UInt16))
  | write (addr : UInt16) (values : List UInt16) (verdict : VoidResult)
  deriving DecidableEq

/-- The state a server works on. -/
structure Serving (σ τ : Type) where
  net : τ
  device : σ
  calls : List HandlerCall := []

namespace Server

variable {σ τ : Type} (server : Server σ) (T : Transport τ)

/-- Wrap a response and send it; the result of the send is dropped. -/
def reply (response : PDU) (txnId : UInt16) (s : Serving σ τ) : Checked (Serving σ τ) := do
  let (_, net) ← T.send (FrameCodec.wrapTcp server.unitId response txnId) s.net
  return { s with net }

/-- The byte count holds the low byte of the true one. -/
def registersResponse (regs : List UInt16) : PDU :=
  PDU.makeStandard .readHoldingRegisters (UInt8.ofNat (regs.length * 2) :: registerBytes regs)

def exceptionResponse (fc : FunctionCode) (ec : StdErrorCode) : PDU :=
  PDU.makeStandard ⟨fc.byte ||| 0x80⟩ [UInt8.ofInt ec.value]

def handleRead (handler : ReadHandler σ) (request : PDU) (txnId : UInt16) (s : Serving σ τ) :
    Checked (Serving σ τ) :=
  match request.payload with
  | a₁ :: a₀ :: c₁ :: c₀ :: _ =>
    let (result, device) := handler (word a₁ a₀) (word c₁ c₀) s.device
    let s := { s with device, calls := s.calls ++ [.read (word a₁ a₀) (word c₁ c₀) result] }
    match result with
    | .value regs => server.reply T (registersResponse regs) txnId s
    | .failure ec => server.reply T (exceptionResponse request.functionCode ec) txnId s
  | _ => return s

/-- The handler's result is not looked at. -/
def handleWriteSingle (handler : WriteHandler σ) (request : PDU)
    (txnId : UInt16) (s : Serving σ τ) :
    Checked (Serving σ τ) :=
  match request.payload with
  | a₁ :: a₀ :: v₁ :: v₀ :: _ =>
    let (result, device) := handler (word a₁ a₀) [word v₁ v₀] s.device
    let s := { s with device, calls := s.calls ++ [.write (word a₁ a₀) [word v₁ v₀] result] }
    server.reply T (PDU.makeStandard .writeSingleRegister [a₁, a₀, v₁, v₀]) txnId s
  | _ => return s

/-- Neither the quantity nor the byte count bounds the registers taken, and the
handler's result is not looked at. -/
def handleWriteMultiple (handler : WriteHandler σ) (request : PDU)
    (txnId : UInt16) (s : Serving σ τ) :
    Checked (Serving σ τ) :=
  match request.payload with
  | a₁ :: a₀ :: c₁ :: c₀ :: _ :: data =>
    let (result, device) := handler (word a₁ a₀) (registersOf data) s.device
    let s := { s with device, calls := s.calls ++ [.write (word a₁ a₀) (registersOf data) result] }
    server.reply T (PDU.makeStandard .writeMultipleRegisters [a₁, a₀, c₁, c₀]) txnId s
  | _ => return s

def handleRequest (request : PDU) (txnId : UInt16) (s : Serving σ τ) : Checked (Serving σ τ) :=
  if request.functionCode = .readHoldingRegisters then
    match server.readHandler with
    | some handler => server.handleRead T handler request txnId s
    | none => return s
  else if request.functionCode = .writeSingleRegister then
    match server.writeHandler with
    | some handler => server.handleWriteSingle T handler request txnId s
    | none => return s
  else if request.functionCode = .writeMultipleRegisters then
    match server.writeHandler with
    | some handler => server.handleWriteMultiple T handler request txnId s
    | none => return s
  else return s

section dispatch

variable {server T} {request : PDU} {txnId : UInt16} {s : Serving σ τ}

theorem handleRequest_of_read {handler : ReadHandler σ} (hread : server.readHandler = some handler)
    (hfc : request.functionCode = .readHoldingRegisters) :
    server.handleRequest T request txnId s = server.handleRead T handler request txnId s := by
  rw [handleRequest, hfc, if_pos rfl, hread]

theorem handleRequest_of_writeSingle {handler : WriteHandler σ}
    (hwrite : server.writeHandler = some handler)
    (hfc : request.functionCode = .writeSingleRegister) :
    server.handleRequest T request txnId s = server.handleWriteSingle T handler
      request txnId s := by
  rw [handleRequest, hfc, if_neg (by decide), if_pos rfl, hwrite]

theorem handleRequest_of_writeMultiple {handler : WriteHandler σ}
    (hwrite : server.writeHandler = some handler)
    (hfc : request.functionCode = .writeMultipleRegisters) :
    server.handleRequest T request txnId s = server.handleWriteMultiple T
      handler request txnId s := by
  rw [handleRequest, hfc, if_neg (by decide), if_neg (by decide), if_pos rfl, hwrite]

end dispatch

/-- The server takes requests for its own unit id and broadcasts. -/
def Addressed (unit : UInt8) : Prop := unit = server.unitId ∨ unit = 0

instance (unit : UInt8) : Decidable (server.Addressed unit) := inferInstanceAs (Decidable (_ ∨ _))

def processOne (s : Serving σ τ) : Checked (Bool × Serving σ τ) := do
  let (recv, net) ← T.receive 10 s.net
  let s := { s with net }
  match recv with
  | .failure _ => return (false, s)
  | .value bytes =>
    match ← FrameCodec.unwrapTcp (.ofList bytes) with
    | .failure _ => return (false, s)
    | .value (unit, pdu, txnId) =>
      if unit ≠ server.unitId ∧ unit ≠ 0 then return (false, s)
      let s ← server.handleRequest T pdu txnId s
      return (true, s)

end Server

end ModbusPp

import ModbusPp.Transport.Transport

/-! A record of everything that crosses a transport, in order: the frames that were
handed to it, with its answers, and what its receives returned. -/

namespace ModbusPp

open Foundation

variable {τ : Type}

inductive TransportEvent
  | sent (frame : List UInt8) (result : VoidResult)
  | received (result : Result (List UInt8))
  deriving DecidableEq

namespace TransportEvent

/-- The frames handed to `send`, accepted or not. -/
def sentFrames (events : List TransportEvent) : List (List UInt8) :=
  events.filterMap fun e => match e with
    | .sent frame _ => some frame
    | .received _ => none

/-- The frames that came in. -/
def receivedFrames (events : List TransportEvent) : List (List UInt8) :=
  events.filterMap fun e => match e with
    | .received (.value frame) => some frame
    | _ => none

@[simp] theorem sentFrames_nil : sentFrames [] = [] := rfl

@[simp] theorem sentFrames_sent (frame : List UInt8) (result : VoidResult)
    (events : List TransportEvent) :
    sentFrames (.sent frame result :: events) = frame :: sentFrames events := rfl

@[simp] theorem sentFrames_received (result : Result (List UInt8)) (events : List TransportEvent) :
    sentFrames (.received result :: events) = sentFrames events := rfl

@[simp] theorem sentFrames_append (events events' : List TransportEvent) :
    sentFrames (events ++ events') = sentFrames events ++ sentFrames events' :=
  List.filterMap_append ..

end TransportEvent

namespace Transport

/-- The transport with the record of its use. -/
def traced (T : Transport τ) : Transport (τ × List TransportEvent) where
  send frame s := do
    let (result, net) ← T.send frame s.1
    return (result, net, s.2 ++ [.sent frame result])
  receive timeout s := do
    let (result, net) ← T.receive timeout s.1
    return (result, net, s.2 ++ [.received result])

variable {T : Transport τ} {s s' : τ × List TransportEvent}

theorem traced_send {frame : List UInt8} {result : VoidResult}
    (h : T.traced.send frame s = .ok (result, s')) :
    T.send frame s.1 = .ok (result, s'.1) ∧ s'.2 = s.2 ++ [.sent frame result] := by
  obtain ⟨⟨result', net⟩, hsend, h⟩ := bind_eq_ok.mp h
  cases h
  exact ⟨hsend, rfl⟩

theorem traced_receive {timeout : ℕ} {result : Result (List UInt8)}
    (h : T.traced.receive timeout s = .ok (result, s')) :
    T.receive timeout s.1 = .ok (result, s'.1) ∧ s'.2 = s.2 ++ [.received result] := by
  obtain ⟨⟨result', net⟩, hreceive, h⟩ := bind_eq_ok.mp h
  cases h
  exact ⟨hreceive, rfl⟩

/-- A peer that takes every frame and answers from a list. -/
def replies : Transport (List (List UInt8)) where
  send _ answers := .ok (.ok, answers)
  receive _ answers :=
    match answers with
    | [] => .ok (.fail .timeoutExpired, [])
    | frame :: answers => .ok (.value frame, answers)

end Transport

end ModbusPp

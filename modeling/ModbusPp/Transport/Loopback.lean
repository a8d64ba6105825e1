import ModbusPp.Transport.Transport

/-! The in-process pair of transports (`loopback_transport.cpp`): two endpoints
and a queue for each direction. The latency is left out, and the random number
that decides whether a send fails is an oracle, one answer for each send. -/

namespace ModbusPp

open Foundation

/-- A `LoopbackTransport` without its queues. -/
structure LoopbackEndpoint where
  connected : Bool := false
  nextError : Option StdErrorCode := none
  drops : List Bool := []
  deriving DecidableEq

namespace LoopbackEndpoint

def connect (e : LoopbackEndpoint) : LoopbackEndpoint := { e with connected := true }

def send (e : LoopbackEndpoint) (frame : List UInt8) (txQueue : List (List UInt8)) :
    VoidResult × LoopbackEndpoint × List (List UInt8) :=
  if !e.connected then (.fail .transportDisconnected, e, txQueue)
  else match e.nextError with
    | some ec => (⟨ec⟩, { e with nextError := none }, txQueue)
    | none =>
      if e.drops.headD false then
        (.fail .transportDisconnected, { e with drops := e.drops.tail }, txQueue)
      else (.ok, { e with drops := e.drops.tail }, txQueue ++ [frame])

def receive (e : LoopbackEndpoint) (rxQueue : List (List UInt8)) :
    Result (List UInt8) × List (List UInt8) :=
  if !e.connected then (.fail .transportDisconnected, rxQueue)
  else match rxQueue with
    | [] => (.fail .timeoutExpired, [])
    | msg :: rest => (.value msg, rest)

theorem send_queue (e : LoopbackEndpoint) (frame : List UInt8) (txQueue : List (List UInt8)) :
    (e.send frame txQueue).2.2 = txQueue ∨ (e.send frame txQueue).2.2 = txQueue ++ [frame] := by
  unfold send
  split
  · exact .inl rfl
  · split
    · exact .inl rfl
    · split
      · exact .inl rfl
      · exact .inr rfl

/-- A receive takes the first frame of the queue, or leaves it as it is. -/
theorem receive_cases (e : LoopbackEndpoint) (rxQueue : List (List UInt8)) :
    (∃ ec, e.receive rxQueue = (.failure ec, rxQueue)) ∨
      ∃ msg rest, rxQueue = msg :: rest ∧ e.receive rxQueue = (.value msg, rest) := by
  unfold receive
  split_ifs
  · exact .inl ⟨_, rfl⟩
  · cases rxQueue with
    | nil => exact .inl ⟨_, rfl⟩
    | cons msg rest => exact .inr ⟨msg, rest, rfl, rfl⟩

end LoopbackEndpoint

structure Loopback where
  client : LoopbackEndpoint := {}
  server : LoopbackEndpoint := {}
  toServer : List (List UInt8) := []
  toClient : List (List UInt8) := []
  deriving DecidableEq

namespace Loopback

/-- `create_pair` with both ends connected: nothing is lost and nothing is under way. -/
def connectedPair : Loopback where
  client := ({} : LoopbackEndpoint).connect
  server := ({} : LoopbackEndpoint).connect

/-- The transport handed to the client. -/
def clientEnd : Transport Loopback where
  send frame l :=
    let (r, client, toServer) := l.client.send frame l.toServer
    .ok (r, { l with client, toServer })
  receive _ l :=
    let (r, toClient) := l.client.receive l.toClient
    .ok (r, { l with toClient })

/-- The transport handed to the server. -/
def serverEnd : Transport Loopback where
  send frame l :=
    let (r, server, toClient) := l.server.send frame l.toClient
    .ok (r, { l with server, toClient })
  receive _ l :=
    let (r, toServer) := l.server.receive l.toServer
    .ok (r, { l with toServer })

theorem clientEnd_send {frame : List UInt8} {l l' : Loopback} {r : VoidResult}
    (h : clientEnd.send frame l = .ok (r, l')) :
    l'.toClient = l.toClient ∧
    (l'.toServer = l.toServer ∨ l'.toServer = l.toServer ++ [frame]) := by
  have hqueue := l.client.send_queue frame l.toServer
  simp only [clientEnd, Except.ok.injEq, Prod.mk.injEq] at h
  obtain ⟨-, rfl⟩ := h
  exact ⟨rfl, hqueue⟩

end Loopback

end ModbusPp

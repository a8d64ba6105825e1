import ModbusPp.Client.EventLoop
import ModbusPp.Client.Operation
import ModbusPp.Client.Replies
import ModbusPp.PubSub.HandlerRuns

/-! A client and a subscriber on one transport, with the event loop of a server at the other
end. The client takes the first frame that comes for its response, so a notification that
has not been polled takes the place of the next response, and the responses after it come
one operation late, until a poll takes one frame more. -/

namespace ModbusPp

open Foundation

variable {σ τ : Type}

/-- The other end of the link. -/
structure Transport.Faces (peer : Transport τ) (queues : τ → Option Queues) : Prop where
  send : ∀ frame net q, queues net = some q →
    ∃ net', peer.send frame net = .ok (.ok, net') ∧ queues net' = some (q.arrive frame)
  receive_nil : ∀ timeout net q, queues net = some q → q.outbox = [] →
    ∃ ec net', peer.receive timeout net = .ok (.failure ec, net') ∧ queues net' = some q
  receive_cons : ∀ timeout net q frame outbox, queues net = some q → q.outbox = frame :: outbox →
    ∃ net', peer.receive timeout net = .ok (.value frame, net') ∧
      queues net' = some { q with outbox }

/-- A server that runs, what it has pushed while somebody waited at the other end, and what
was taken last there. -/
structure Facing (σ τ : Type) where
  serving : Publishing (Serving σ τ)
  pushes : List Issued := []
  consumed : Option (List UInt8) := none

/-- What a turn of the loop pushed. -/
def turnPushes (turned : Bool × List (List (Option Issued))) : List Issued :=
  turned.2.flatMap fun row => row.flatMap Option.toList

/-- The other end's transport with the event loop behind it, which takes `extra` turns more
than one in each receive. -/
def Server.facing (server : Server σ) (W : World τ) (peer : Transport τ)
    (extra : ℕ) : Transport (Facing σ τ) where
  send frame s := do
    let (r, net) ← peer.send frame s.serving.net.net
    return (r, { s with serving := { s.serving with net := { s.serving.net with net } } })
  receive timeout s := do
    let (turned, serving) ← runAll (fun (_ : Unit) => server.turn W)
      (List.replicate (extra + 1) ()) s.serving
    let (r, net) ← peer.receive timeout serving.net.net
    let consumed := match r with
      | .value frame => some frame
      | .failure _ => none
    return (r, ⟨{ serving with net := { serving.net with net } }, s.pushes ++
      turned.flatMap turnPushes, consumed⟩)

/-- What happens on the two ends: the client has an operation, during which the loop takes
`extra` turns more than one, the loop takes a turn, or the subscriber's poll does. -/
inductive FacingMove
  | operate (extra : ℕ) (op : Operation)
  | turn
  | poll (now : Timestamp)

/-- An operation of the client, with what crossed the transport meanwhile. -/
structure FacingExchange where
  sent : List UInt8
  outcome : Outcome
  pushes : List Issued
  consumed : Option (List UInt8)

inductive FacingEvent
  | exchanged (e : FacingExchange)
  | turned (pushes : List Issued)
  | polled (e : SubscriberEvent)

/-- The frame is a response under the transaction id of the operation. -/
def FacingExchange.Answers (e : FacingExchange) (frame : List UInt8) : Prop :=
  IsMbap frame = true ∧ frame.take 2 = e.sent.take 2

namespace FacingEvent

def pushes : FacingEvent → List Issued
  | exchanged e => e.pushes
  | turned pushes => pushes
  | polled _ => []

/-- The notifications that were delivered. -/
def told (events : List FacingEvent) : List (List UInt8) :=
  (events.flatMap pushes).flatMap Issued.frames

/-- The frames that the polls took. -/
def polledFrames : FacingEvent → List (List UInt8)
  | polled (.took taken) => [taken.frame]
  | _ => []

def consumed : FacingEvent → List (List UInt8)
  | exchanged e => e.consumed.toList
  | e => e.polledFrames

/-- What the server sent, in its order. -/
def Emits (frames : List (List UInt8)) : FacingEvent → Prop
  | exchanged e => ∃ response, e.Answers response ∧ frames = response ::
      e.pushes.flatMap Issued.frames
  | turned pushes => frames = pushes.flatMap Issued.frames
  | polled _ => frames = []

/-- The polls have taken as many frames as were told. -/
def InStep (events : List FacingEvent) : Prop :=
  (events.flatMap polledFrames).length = (told events).length

/-- In step, an operation takes its own response, and otherwise a frame that was sent
before its request. A poll that finds nothing more is in step. -/
def Steered (before : List FacingEvent) : FacingEvent → Prop
  | exchanged e => ∃ frame, e.consumed = some frame ∧ (InStep before → e.Answers frame) ∧
      (¬InStep before → ∃ earlier ∈ before, ∃ frames, earlier.Emits frames ∧ frame ∈ frames) ∧
      ∀ notif : EventNotification, frame = notif.frame → e.outcome.hasValue = false
  | polled .ended => InStep before
  | _ => True

end FacingEvent

namespace Operation

theorem run_receives {T : Transport τ} {op : Operation} {s s' : Running τ}
    {out : Outcome} {sent : VoidResult} {net : τ}
    (hsend : T.send (op.frame s.client) s.net = .ok (sent, net)) (hsent : sent.hasValue = true)
    (h : op.run T s = .ok (out, s')) :
    ∃ recv, T.receive s.client.config.defaultTimeout net = .ok (recv, s'.net) ∧
      ∀ bytes, recv = .value bytes → ∃ result, Client.decodeResponse bytes = .ok result ∧
        op.finish result = .ok out := by
  rw [run_eq] at h
  obtain ⟨⟨result, s₁⟩, htransact, h⟩ := bind_eq_ok.mp h
  obtain ⟨out', hfinish, h⟩ := bind_eq_ok.mp h
  cases h
  obtain ⟨⟨sent', net'⟩, hsend', htransact⟩ := bind_eq_ok.mp htransact
  obtain ⟨rfl, rfl⟩ := Prod.mk.inj (Except.ok.inj (hsend.symm.trans hsend'))
  simp only [hsent, Bool.not_true, Bool.false_eq_true, if_false] at htransact
  obtain ⟨⟨recv, net''⟩, hreceive, htransact⟩ := bind_eq_ok.mp htransact
  cases recv with
  | failure ec =>
    cases htransact
    exact ⟨_, hreceive, nofun⟩
  | value bytes =>
    obtain ⟨result', hdecode, htransact⟩ := bind_eq_ok.mp htransact
    cases htransact
    refine ⟨_, hreceive, ?_⟩
    rintro _ ⟨⟩
    exact ⟨result, hdecode, hfinish⟩

/-- The request of the operation is for the server, which supports it. -/
def Served (server : Server σ) (op : Operation) (client : Client) : Prop :=
  ∃ unit pdu txnId,
    FrameCodec.unwrapTcp (.ofList (op.frame client)) = .ok (.value (unit, pdu, txnId)) ∧
    server.Addressed unit ∧ server.Supports pdu

end Operation

def FacingMove.Served (server : Server σ) (move : FacingMove) (s : Running (Facing σ τ)) : Prop :=
  match move with
  | .operate _ op => op.Served server s.client
  | _ => True

def Server.facingStep (server : Server σ) (W : World τ) (peer : Transport τ)
    (subscriber : Subscriber) (move : FacingMove) (s : Running (Facing σ τ)) :
    Checked (FacingEvent × Running (Facing σ τ)) :=
  match move with
  | .operate extra op => do
    let (outcome, s') ← op.run (server.facing W peer extra)
      { s with net := { s.net with pushes := [] } }
    return (.exchanged ⟨op.frame s.client, outcome, s'.net.pushes, s'.net.consumed⟩, s')
  | .turn => do
    let (turned, serving) ← server.turn W s.net.serving
    return (.turned (turnPushes turned), { s with net := { s.net with serving } })
  | .poll now => do
    let (e, polling) ← Subscriber.step peer (.turn now) ⟨subscriber, s.net.serving.net.net⟩
    return (.polled e, { s with
      net := { s.net with serving :=
        { s.net.serving with net := { s.net.serving.net with net := polling.net } } } })

theorem unwrapTcp_notification (notif : EventNotification) :
    FrameCodec.unwrapTcp (.ofList notif.frame) = .ok (.fail .invalidFrame) := by
  have hno : ¬FrameCodec.HeaderOk notif.frame := by
    rintro ⟨-, htwo, hthree, -⟩
    have hmbap := isMbap_notification notif
    rw [IsMbap, htwo, hthree] at hmbap
    simp at hmbap
  rw [FrameCodec.unwrapTcp_eq fun hok => absurd hok hno, if_neg hno]

theorem decodeResponse_notification (notif : EventNotification) :
    Client.decodeResponse notif.frame = .ok (.fail .invalidFrame) := by
  rw [Client.decodeResponse, unwrapTcp_notification]
  rfl

/-- What the server supports is standard, and so is the function code that it answers with. -/
theorem Server.Supports.standard {server : Server σ} {request : PDU}
    {fc : FunctionCode} (h : server.Supports request)
    (hfc : fc.byte = request.functionCode.byte ∨ fc.byte = request.functionCode.byte ||| 0x80) :
    ¬fc.IsExtended := by
  obtain ⟨byte⟩ := fc
  rcases h with ⟨hrequest, -⟩ | ⟨hrequest, -⟩ | ⟨hrequest, -⟩ <;> rw [hrequest] at hfc <;>
    rcases hfc with rfl | rfl <;> decide

/-- The server answers exactly the requests that it supports, in a standard frame. -/
structure Server.Responds (server : Server σ) (unit : UInt8) (request : PDU) (txnId : UInt16)
    (answer : Option (List UInt8)) : Prop where
  isSome_iff : answer.isSome ↔ server.Addressed unit ∧ server.Supports request
  standard : ∀ frame, answer = some frame → ∃ fc data, ¬FunctionCode.IsExtended fc ∧
    frame = FrameCodec.wrapTcp server.unitId (.makeStandard fc data) txnId

section turns

variable {W : World τ} {arrive : List UInt8 → τ → τ} {queues : τ → Option Queues}
  {server : Server σ}
  {s s' : Publishing (Serving σ τ)} {turned : Bool × List (List (Option Issued))}
    {outbox : List (List UInt8)}

variable (hW : W.Linked arrive queues)
include hW

theorem turn_idle (hlooks : ∀ source ∈ s.publisher.sources, source.LooksOn queues)
    (hqueues : queues s.net.net = some ⟨[], outbox⟩) (h : server.turn W s = .ok (turned, s')) :
    (∀ source ∈ s'.publisher.sources, source.LooksOn queues) ∧
      queues s'.net.net = some ⟨[], outbox ++ (turnPushes turned).flatMap Issued.frames⟩ := by
  obtain ⟨⟨handled, net⟩, hone, h⟩ := bind_eq_ok.mp h
  obtain ⟨⟨log, s₁⟩, hscan, h⟩ := bind_eq_ok.mp h
  cases h
  obtain ⟨net', hreceive, hqueues'⟩ := hW.receive_nil 10 s.net.net _ hqueues rfl
  simp only [Server.processOne, hreceive, ok_bind, pure_eq_ok] at hone
  cases hone
  obtain ⟨hlooks', hrests⟩ := scan_rests hW (s := ⟨s.publisher, { s.net with net := net' }⟩) hlooks
    ⟨rfl, rfl, hqueues'⟩ hscan
  exact ⟨hlooks', hrests.queues⟩

theorem turns_idle {us : List Unit} {turns : List (Bool × List (List (Option Issued)))}
    (hlooks : ∀ source ∈ s.publisher.sources, source.LooksOn queues)
    (hqueues : queues s.net.net = some ⟨[], outbox⟩)
    (h : runAll (fun _ => server.turn W) us s = .ok (turns, s')) :
    (∀ source ∈ s'.publisher.sources, source.LooksOn queues) ∧
      queues s'.net.net =
        some ⟨[], outbox ++ (turns.flatMap turnPushes).flatMap Issued.frames⟩ := by
  have hone : ∀ u ∈ us, ∀ (s : Publishing (Serving σ τ)) turned s' outbox,
      ((∀ source ∈ s.publisher.sources, source.LooksOn queues) ∧
        queues s.net.net = some ⟨[], outbox⟩) →
      server.turn W s = .ok (turned, s') →
      (∀ source ∈ s'.publisher.sources, source.LooksOn queues) ∧
        queues s'.net.net = some ⟨[], outbox ++ (turnPushes turned).flatMap Issued.frames⟩ := by
    rintro - - s turned s' outbox ⟨hlooks, hqueues⟩ hturn
    exact turn_idle hW hlooks hqueues hturn
  have hall := runAll_appends _ (fun turned => (turnPushes turned).flatMap Issued.frames)
    us hone ⟨hlooks, hqueues⟩ h
  rwa [← List.flatMap_assoc] at hall

theorem turn_responds {frame : List UInt8} {unit : UInt8} {request : PDU} {txnId : UInt16}
    (hlooks : ∀ source ∈ s.publisher.sources, source.LooksOn queues)
    (hqueues : queues s.net.net = some ⟨[frame], outbox⟩)
    (hunwrap : FrameCodec.unwrapTcp (.ofList frame) = .ok (.value (unit, request, txnId)))
    (h : server.turn W s = .ok (turned, s')) :
    (∀ source ∈ s'.publisher.sources, source.LooksOn queues) ∧
    ∃ answer, server.Responds unit request txnId answer ∧
      queues s'.net.net =
        some ⟨[], outbox ++ answer.toList ++ (turnPushes turned).flatMap Issued.frames⟩ := by
  obtain ⟨⟨handled, net⟩, hone, h⟩ := bind_eq_ok.mp h
  obtain ⟨⟨log, s₁⟩, hscan, h⟩ := bind_eq_ok.mp h
  cases h
  obtain ⟨net', hreceive, hqueues'⟩ := hW.receive_cons 10 s.net.net _ frame [] hqueues rfl
  by_cases hunit : server.Addressed unit
  · rw [Server.processOne_takes hreceive hunwrap hunit] at hone
    obtain ⟨s₂, hrequest, hone⟩ := bind_eq_ok.mp hone
    cases hone
    obtain ⟨response, s₃, hhandles, hrespond⟩ :=
      Server.handleRequest_handles W.toTransport txnId server request { s.net with net := net' }
    rw [hrespond] at hrequest
    cases hhandles with
    | dropped hno =>
      cases hrequest
      obtain ⟨hlooks', hrests⟩ :=
        scan_rests hW (s := ⟨s.publisher, { s.net with net := net' }⟩) hlooks
        ⟨rfl, rfl, hqueues'⟩ hscan
      exact ⟨hlooks', none, ⟨by simp [hno], nofun⟩,
        by rw [hrests.queues, Option.toList_none, List.append_nil]; rfl⟩
    | @answered call device fc data hyes hfc =>
      obtain ⟨net'', hsend, hqueues''⟩ :=
        hW.send (FrameCodec.wrapTcp server.unitId (.makeStandard fc data) txnId) net' _ hqueues'
      simp only [Server.respond, Server.reply, hsend, ok_bind, pure_eq_ok] at hrequest
      cases hrequest
      obtain ⟨hlooks', hrests⟩ :=
        scan_rests hW (s := ⟨s.publisher, ⟨net'', device, s.net.calls ++ [call]⟩⟩) hlooks
        ⟨rfl, rfl, hqueues''⟩ hscan
      refine ⟨hlooks', some _, ⟨by simp [hunit, hyes], ?_⟩, hrests.queues⟩
      rintro _ ⟨⟩
      exact ⟨fc, data, Server.Supports.standard hyes (hfc.imp_right And.left), rfl⟩
  · have hno : ¬server.Takes frame := by
      rintro ⟨unit', request', txnId', hunwrap', hunit'⟩
      cases hunwrap.symm.trans hunwrap'
      exact hunit hunit'
    rw [Server.processOne_leaves hreceive hunwrap hno] at hone
    cases hone
    obtain ⟨hlooks', hrests⟩ :=
      scan_rests hW (s := ⟨s.publisher, { s.net with net := net' }⟩) hlooks
      ⟨rfl, rfl, hqueues'⟩ hscan
    exact ⟨hlooks', none, ⟨by simp [hunit], nofun⟩,
      by rw [hrests.queues, Option.toList_none, List.append_nil]; rfl⟩

end turns

section facing

variable {W : World τ} {arrive : List UInt8 → τ → τ} {queues : τ → Option Queues}
  {server : Server σ}
  {peer : Transport τ} {subscriber : Subscriber} {s s' : Running (Facing σ τ)}
    {backlog : List (List UInt8)}

theorem take_request {frame : List UInt8} {unit unit' : UInt8} {pdu response : PDU} {txnId : UInt16}
    (h : FrameCodec.unwrapTcp (.ofList frame) = .ok (.value (unit, pdu, txnId))) :
    (FrameCodec.wrapTcp unit' response txnId).take 2 = frame.take 2 := by
  rw [FrameCodec.unwrapTcp, FrameCodec.unwrapHeader_eq, ok_bind] at h
  split_ifs at h with hok
  · obtain ⟨decoded, -, h⟩ := bind_eq_ok.mp h
    cases decoded with
    | failure ec => cases h
    | value pdu' =>
      cases h
      obtain ⟨t₁, t₀, rest, rfl⟩ : ∃ t₁ t₀ rest, frame = t₁ :: t₀ :: rest := by
        have hlen := hok.1
        rcases frame with _ | ⟨t₁, _ | ⟨t₀, rest⟩⟩
        · simp at hlen
        · simp at hlen
        · exact ⟨t₁, t₀, rest, rfl⟩
      simp [FrameCodec.wrapTcp]
  · cases h

/-- A receive after a request: the response and the notifications go behind the backlog,
whose first frame is taken. -/
theorem facing_receive (hW : W.Linked arrive queues) (hpeer : peer.Faces queues) {extra timeout : ℕ}
    {frame : List UInt8} {unit : UInt8} {request : PDU} {txnId : UInt16}
    {recv : Result (List UInt8)} {s s' : Facing σ τ}
    (hlooks : ∀ source ∈ s.serving.publisher.sources, source.LooksOn queues)
    (hqueues : queues s.serving.net.net = some ⟨[frame], backlog⟩)
    (hunwrap : FrameCodec.unwrapTcp (.ofList frame) = .ok (.value (unit, request, txnId)))
    (h : (server.facing W peer extra).receive timeout s = .ok (recv, s')) :
    (∀ source ∈ s'.serving.publisher.sources, source.LooksOn queues) ∧ ∃ answer pushes frames,
      server.Responds unit request txnId answer ∧ s'.pushes = s.pushes ++ pushes ∧
      frames = backlog ++ answer.toList ++ pushes.flatMap Issued.frames ∧
      queues s'.serving.net.net = some ⟨[], frames.tail⟩ ∧ s'.consumed = frames.head? ∧
      ((∃ ec, recv = .failure ec ∧ frames = []) ∨ ∃ frame rest, recv = .value frame ∧
        frames = frame :: rest) := by
  obtain ⟨⟨turns, serving⟩, hturns, h⟩ := bind_eq_ok.mp h
  rw [List.replicate_succ] at hturns
  obtain ⟨turned, serving₁, others, hfirst, hothers, rfl⟩ := runAll_cons.mp hturns
  obtain ⟨hlooks₁, answer, hresponds, hqueues₁⟩ := turn_responds hW hlooks hqueues hunwrap hfirst
  obtain ⟨hlooks₂, hqueues₂⟩ := turns_idle hW hlooks₁ hqueues₁ hothers
  rw [List.append_assoc, ← List.flatMap_append] at hqueues₂
  cases hall : backlog ++ answer.toList ++
    (turnPushes turned ++ others.flatMap turnPushes).flatMap Issued.frames with
  | nil =>
    rw [hall] at hqueues₂
    obtain ⟨ec, net', hreceived, hqueues'⟩ := hpeer.receive_nil timeout _ _ hqueues₂ rfl
    simp only [hreceived, ok_bind, pure_eq_ok] at h
    cases h
    exact ⟨hlooks₂, answer, _, [], hresponds, rfl, hall.symm, hqueues', rfl, .inl ⟨ec, rfl, rfl⟩⟩
  | cons first rest =>
    rw [hall] at hqueues₂
    obtain ⟨net', hreceived, hqueues'⟩ := hpeer.receive_cons timeout _ _ first rest hqueues₂ rfl
    simp only [hreceived, ok_bind, pure_eq_ok] at h
    cases h
    exact ⟨hlooks₂, answer, _, first ::
      rest, hresponds, rfl, hall.symm, hqueues', rfl, .inr ⟨first, rest, rfl, rfl⟩⟩

/-- An operation puts its response and the notifications behind the backlog, and takes the
first frame of all. -/
theorem facing_exchange (hW : W.Linked arrive queues) (hpeer : peer.Faces queues)
    {extra : ℕ} {op : Operation} {e : FacingEvent}
    (hlooks : ∀ source ∈ s.net.serving.publisher.sources, source.LooksOn queues)
    (hqueues : queues s.net.serving.net.net = some ⟨[], backlog⟩)
    (hserved : op.Served server s.client)
    (h : server.facingStep W peer subscriber (.operate extra op) s = .ok (e, s')) :
    (∀ source ∈ s'.net.serving.publisher.sources, source.LooksOn queues) ∧
      ∃ exchange response frame backlog', e = .exchanged exchange ∧ exchange.Answers response ∧
        exchange.consumed = some frame ∧
        backlog ++ response :: exchange.pushes.flatMap Issued.frames = frame :: backlog' ∧
        queues s'.net.serving.net.net = some ⟨[], backlog'⟩ ∧
        ∀ notif : EventNotification, frame = notif.frame → exchange.outcome.hasValue = false := by
  obtain ⟨unit, pdu, txnId, hunwrap, hunit, hsupports⟩ := hserved
  obtain ⟨⟨outcome, s₁⟩, hrun, h⟩ := bind_eq_ok.mp h
  cases h
  obtain ⟨net, hsend, hqueues₁⟩ := hpeer.send (op.frame s.client) s.net.serving.net.net _ hqueues
  have hsent : (server.facing W peer extra).send (op.frame s.client) { s.net with pushes := [] } =
      .ok (.ok, ⟨⟨s.net.serving.publisher, { s.net.serving.net with net }⟩, [],
        s.net.consumed⟩) := by
    simp only [Server.facing, hsend, ok_bind, pure_eq_ok]
  obtain ⟨recv, hreceive, hread⟩ := Operation.run_receives hsent rfl hrun
  obtain ⟨hlooks', answer, pushes, frames, hresponds, hpushes, hframes, hqueues',
    hconsumed, hrecv⟩ :=
    facing_receive hW hpeer
      (s := ⟨⟨s.net.serving.publisher, { s.net.serving.net with net }⟩, [], s.net.consumed⟩)
      hlooks hqueues₁ hunwrap hreceive
  obtain ⟨response, rfl⟩ :=
    Option.isSome_iff_exists.mp (hresponds.isSome_iff.mpr ⟨hunit, hsupports⟩)
  obtain ⟨fc, data, -, rfl⟩ := hresponds.standard response rfl
  rw [Option.toList_some, List.append_assoc, List.singleton_append] at hframes
  obtain ⟨ec, -, rfl⟩ | ⟨frame, rest, rfl, rfl⟩ := hrecv
  · simp at hframes
  refine ⟨hlooks', _, FrameCodec.wrapTcp server.unitId (.makeStandard fc data) txnId,
    frame, rest, rfl,
    ⟨isMbap_wrapTcp _ _ _, take_request hunwrap⟩, hconsumed, ?_, hqueues', ?_⟩
  · rw [hframes, hpushes, List.nil_append]
  · rintro notif rfl
    obtain ⟨result, hdecode, hfinish⟩ := hread _ rfl
    rw [decodeResponse_notification] at hdecode
    obtain rfl := Except.ok.inj hdecode
    obtain ⟨out, hfinish', -, hno⟩ := op.finish_failure (makeErrorCode .invalidFrame)
    obtain rfl := Except.ok.inj (hfinish.symm.trans hfinish')
    exact hno (by decide)

/-- What was taken, followed by what still waits, is what the server has sent. -/
structure Facing.Holds (queues : τ → Option Queues) (s : Running (Facing σ τ))
    (history : List FacingEvent) : Prop where
  looks : ∀ source ∈ s.net.serving.publisher.sources, source.LooksOn queues
  fifo : ∃ batches backlog, List.Forall₂ FacingEvent.Emits batches history ∧
    history.flatMap FacingEvent.consumed ++ backlog = batches.flatten ∧
    queues s.net.serving.net.net = some ⟨[], backlog⟩ ∧
    backlog.length + (history.flatMap FacingEvent.polledFrames).length =
      (FacingEvent.told history).length
  steered : Throughout FacingEvent.Steered history

theorem operate_holds (hW : W.Linked arrive queues) (hpeer : peer.Faces queues)
    {extra : ℕ} {op : Operation} {e : FacingEvent} {history : List FacingEvent}
    (hserved : op.Served server s.client) (h : Facing.Holds queues s history)
    (hstep : server.facingStep W peer subscriber (.operate extra op) s = .ok (e, s')) :
    Facing.Holds queues s' (history ++ [e]) := by
  obtain ⟨hlooks, ⟨batches, backlog, hemits, hflow, hqueues, hlen⟩, hsteered⟩ := h
  obtain ⟨hlooks', exchange, response, frame, backlog', rfl, hanswers, hconsumed, htake,
    hqueues', hnotif⟩ :=
    facing_exchange hW hpeer hlooks hqueues hserved hstep
  refine ⟨hlooks', ⟨batches ++ [response :: exchange.pushes.flatMap Issued.frames], backlog',
    ?_, ?_, hqueues', ?_⟩,
    throughout_snoc.mpr ⟨hsteered, frame, hconsumed, ?_, ?_, hnotif⟩⟩
  · exact List.rel_append hemits (.cons ⟨response, hanswers, rfl⟩ .nil)
  · simp [FacingEvent.consumed, hconsumed, ← hflow, htake]
  · have := congrArg List.length htake
    simp [FacingEvent.told, FacingEvent.pushes, FacingEvent.polledFrames,
      List.flatMap_append] at this hlen ⊢
    omega
  · intro hin
    obtain rfl : backlog = [] := by
      rw [← List.length_eq_zero_iff]
      rw [FacingEvent.InStep] at hin
      omega
    cases htake
    exact hanswers
  · intro hout
    have hne : backlog ≠ [] := by
      rintro rfl
      exact hout (by rw [FacingEvent.InStep, ← hlen, List.length_nil, Nat.zero_add])
    obtain ⟨first, rest, rfl⟩ := List.exists_cons_of_ne_nil hne
    cases htake
    have hmem : frame ∈ batches.flatten := by
      rw [← hflow]
      exact List.mem_append_right _ List.mem_cons_self
    obtain ⟨frames, hframes, hin⟩ := List.mem_flatten.mp hmem
    obtain ⟨k, hk⟩ := List.mem_iff_getElem?.mp hframes
    obtain ⟨earlier, hearlier, hemit⟩ := Publisher.forall₂_at hemits hk
    exact ⟨earlier, List.mem_of_getElem? hearlier, frames, hemit, hin⟩

theorem poll_holds (hpeer : peer.Faces queues) {now : Timestamp}
    {e : FacingEvent} {history : List FacingEvent} (h : Facing.Holds queues s history)
    (hstep : server.facingStep W peer subscriber (.poll now) s = .ok (e, s')) :
    Facing.Holds queues s' (history ++ [e]) := by
  obtain ⟨hlooks, ⟨batches, backlog, hemits, hflow, hqueues, hlen⟩, hsteered⟩ := h
  obtain ⟨⟨polled, polling⟩, hpoll, hstep⟩ := bind_eq_ok.mp hstep
  cases hstep
  cases backlog with
  | nil =>
    obtain ⟨ec, net', hreceive, hqueues'⟩ := hpeer.receive_nil 0 _ _ hqueues rfl
    simp only [Subscriber.step, hreceive, ok_bind, pure_eq_ok] at hpoll
    cases hpoll
    refine ⟨hlooks,
      ⟨batches ++ [[]], [], List.rel_append hemits (.cons rfl .nil), ?_, hqueues', ?_⟩,
      throughout_snoc.mpr ⟨hsteered, ?_⟩⟩
    · simpa [FacingEvent.consumed, FacingEvent.polledFrames] using hflow
    · simpa [FacingEvent.told, FacingEvent.pushes, FacingEvent.polledFrames] using hlen
    · rw [List.length_nil, Nat.zero_add] at hlen
      exact hlen
  | cons frame backlog =>
    obtain ⟨net', hreceive, hqueues'⟩ := hpeer.receive_cons 0 _ _ frame backlog hqueues rfl
    simp only [Subscriber.step, hreceive, ok_bind, pure_eq_ok] at hpoll
    obtain ⟨taken, htake, hpoll⟩ := bind_eq_ok.mp hpoll
    cases hpoll
    refine ⟨hlooks,
      ⟨batches ++ [[]], backlog, List.rel_append hemits (.cons rfl .nil), ?_, hqueues', ?_⟩,
      throughout_snoc.mpr ⟨hsteered, trivial⟩⟩
    · simpa [FacingEvent.consumed, FacingEvent.polledFrames,
        Subscriber.take_frame htake] using hflow
    · simp [FacingEvent.told, FacingEvent.pushes, FacingEvent.polledFrames] at hlen ⊢
      omega

theorem facingStep_holds (hW : W.Linked arrive queues) (hpeer : peer.Faces queues)
    {move : FacingMove} {e : FacingEvent} {history : List FacingEvent}
    (hserved : move.Served server s) (h : Facing.Holds queues s history)
    (hstep : server.facingStep W peer subscriber move s = .ok (e, s')) :
    Facing.Holds queues s' (history ++ [e]) := by
  cases move with
  | operate extra op => exact operate_holds hW hpeer hserved h hstep
  | poll now => exact poll_holds hpeer h hstep
  | turn =>
    obtain ⟨hlooks, ⟨batches, backlog, hemits, hflow, hqueues, hlen⟩, hsteered⟩ := h
    obtain ⟨⟨turned, serving⟩, hturn, hstep⟩ := bind_eq_ok.mp hstep
    cases hstep
    obtain ⟨hlooks', hqueues'⟩ := turn_idle hW hlooks hqueues hturn
    refine ⟨hlooks',
      ⟨batches ++ [(turnPushes turned).flatMap Issued.frames], _, ?_, ?_, hqueues', ?_⟩,
      throughout_snoc.mpr ⟨hsteered, trivial⟩⟩
    · exact List.rel_append hemits (.cons rfl .nil)
    · simp [FacingEvent.consumed, FacingEvent.polledFrames, ← hflow]
    · simp [FacingEvent.told, FacingEvent.pushes, FacingEvent.polledFrames] at hlen ⊢
      omega

end facing

theorem Loopback.clientEnd_faces : clientEnd.Faces queues where
  send := by
    rintro frame l ⟨inbox, outbox⟩ hqueues
    obtain rfl := queues_eq_some.mp hqueues
    exact ⟨_, rfl, rfl⟩
  receive_nil := by
    rintro timeout l ⟨inbox, outbox⟩ hqueues ⟨⟩
    obtain rfl := queues_eq_some.mp hqueues
    exact ⟨_, _, rfl, rfl⟩
  receive_cons := by
    rintro timeout l ⟨inbox, outbox⟩ frame outbox' hqueues ⟨⟩
    obtain rfl := queues_eq_some.mp hqueues
    exact ⟨_, rfl, rfl⟩

/-- The meter takes a write and tells the new value. The read that follows takes the
notification, and the poll the response to the read: the last read is in step again. -/
def writeThenReads : List FacingMove :=
  [.operate 0 (.writeSingleRegister 1 0 7), .operate 1 (.readHoldingRegisters 1 0 1), .poll ⟨0⟩,
    .operate 0 (.readHoldingRegisters 1 0 1), .poll ⟨0⟩]

end ModbusPp

import ModbusPp.Client.Client
import ModbusPp.Client.Server
import ModbusPp.Foundation.Refinement
import ModbusPp.PubSub.FailedPushes
import ModbusPp.Transport.Loopback

/-! The server's event loop (`Server::run`). A turn takes one request at most and has the
publisher scan, over the transport that the responses go out on. What the loop does to
its requests is what a server without a publisher does, and the notifications stand
between the responses without touching them. -/

namespace ModbusPp

open Foundation

variable {σ τ : Type}

/-- A frame without the marks of the protocol, as `wrap_tcp` makes it. -/
def IsMbap (frame : List UInt8) : Bool := frame[2]? = some 0 && frame[3]? = some 0

theorem isMbap_wrapTcp (unit : UInt8) (pdu : PDU) (txnId : UInt16) :
    IsMbap (FrameCodec.wrapTcp unit pdu txnId) = true := rfl

/-- A notification has the flag of its timestamp where a response has zeros. -/
theorem isMbap_notification (notif : EventNotification) : IsMbap notif.frame = false := by
  have hflags : notif.frame[3]? = some (loByte (FrameFlag.none ||| .hasTimestamp).bits) := rfl
  rw [IsMbap, hflags, Bool.and_eq_false_iff]
  exact .inr (by decide)

/-- The frames that wait to be received, and those that were sent. -/
structure Queues where
  inbox : List (List UInt8) := []
  outbox : List (List UInt8) := []

namespace Queues

/-- A connected transport that loses nothing. -/
def link : Transport Queues where
  send frame q := .ok (.ok, { q with outbox := q.outbox ++ [frame] })
  receive _ q :=
    match q.inbox with
    | [] => .ok (.fail .timeoutExpired, q)
    | frame :: inbox => .ok (.value frame, { q with inbox })

/-- The peer sends a frame. -/
def arrive (frame : List UInt8) (q : Queues) : Queues := { q with inbox := q.inbox ++ [frame] }

end Queues

/-- Where `queues` finds the queues of a connected transport, the world is a link. -/
structure World.Linked (W : World τ) (arrive : List UInt8 → τ → τ)
    (queues : τ → Option Queues) : Prop where
  send : ∀ frame net q, queues net = some q →
    ∃ net', W.send frame net = .ok (.ok, net') ∧
      queues net' = some { q with outbox := q.outbox ++ [frame] }
  receive_nil : ∀ timeout net q, queues net = some q → q.inbox = [] →
    ∃ net', W.receive timeout net = .ok (.fail .timeoutExpired, net') ∧ queues net' = some q
  receive_cons : ∀ timeout net q frame inbox, queues net = some q → q.inbox = frame :: inbox →
    ∃ net', W.receive timeout net = .ok (.value frame, net') ∧ queues net' = some { q with inbox }
  now : ∀ net, queues (W.now net).2 = queues net
  arrive : ∀ frame net q, queues net = some q → queues (arrive frame net) = some (q.arrive frame)

/-- The world as the readers of the server's publisher see it: they may look at the
device. -/
def World.serving (W : World τ) : World (Serving σ τ) where
  send frame s := do
    let (r, net) ← W.send frame s.net
    return (r, { s with net })
  receive timeout s := do
    let (r, net) ← W.receive timeout s.net
    return (r, { s with net })
  isConnected s := W.isConnected s.net
  now s := ((W.now s.net).1, { s with net := (W.now s.net).2 })

/-- What happens to a running server: the peer sends a frame, the loop takes a turn, or
somebody calls the publisher between two turns. -/
inductive LoopMove (σ τ : Type)
  | arrive (frame : List UInt8)
  | turn
  | publish (call : PublisherCall (Serving σ τ))

inductive LoopEvent (σ : Type)
  | arrived
  | turned (handled : Bool) (log : List (List (Option Issued))) (device : σ)
  | published (outcome : PublisherOutcome)

namespace LoopEvent

/-- What `process_one` returned in a turn. -/
def handled : LoopEvent σ → List Bool
  | .turned handled _ _ => [handled]
  | _ => []

def pushes : LoopEvent σ → List Issued
  | .turned _ log _ => log.flatMap fun row => row.flatMap Option.toList
  | .published (.scanned log) => log.flatMap fun row => row.flatMap Option.toList
  | _ => []

end LoopEvent

/-- What happens to a server without a publisher. -/
inductive PlainMove
  | arrive (frame : List UInt8)
  | turn

def LoopMove.plain : LoopMove σ τ → Option PlainMove
  | .arrive frame => some (.arrive frame)
  | .turn => some .turn
  | .publish _ => none

namespace Server

variable (server : Server σ)

/-- One turn of the loop in `run`. -/
def turn (W : World τ) (s : Publishing (Serving σ τ)) :
    Checked ((Bool × List (List (Option Issued))) × Publishing (Serving σ τ)) := do
  let (handled, net) ← server.processOne W.toTransport s.net
  let (log, s) ← Publisher.scanAndNotify W.serving { s with net }
  return ((handled, log), s)

def loopStep (W : World τ) (arrive : List UInt8 → τ → τ) (move : LoopMove σ τ)
    (s : Publishing (Serving σ τ)) :
    Checked (LoopEvent σ × Publishing (Serving σ τ)) :=
  match move with
  | .arrive frame =>
      return (.arrived, { s with net := { s.net with net := arrive frame s.net.net } })
  | .turn => do
    let ((handled, log), s) ← server.turn W s
    return (.turned handled log s.net.device, s)
  | .publish call => do
    let (outcome, s) ← Publisher.perform W.serving call s
    return (.published outcome, s)

/-- A server without a publisher over the link. -/
def plainStep (move : PlainMove) (s : Serving σ Queues) : Checked (List Bool × Serving σ Queues) :=
  match move with
  | .arrive frame => return ([], { s with net := s.net.arrive frame })
  | .turn => do
    let (handled, s) ← server.processOne Queues.link s
    return ([handled], s)

end Server

/-! ### The transport under the server -/

section Linked

variable {W : World τ} {arrive : List UInt8 → τ → τ} {queues : τ → Option Queues}
  {server : Server σ}
  {s s' : Serving σ τ} {t : Serving σ Queues} {told : List (List UInt8)}

/-- The server `s` with a publisher has done what `t` has done without one, and has sent
`told` besides. -/
structure Follows (queues : τ → Option Queues) (s : Serving σ τ)
    (t : Serving σ Queues) (told : List (List UInt8)) :
    Prop where
  device : s.device = t.device
  calls : s.calls = t.calls
  link : ∃ outbox, queues s.net = some ⟨t.net.inbox, outbox⟩ ∧ outbox.filter IsMbap = t.net.outbox ∧
    outbox.filter (!IsMbap ·) = told

theorem Follows.called (hfollows : Follows queues s t told) (device : σ) (call : HandlerCall) :
    Follows queues { s with device, calls := s.calls ++ [call] }
      { t with device, calls := t.calls ++ [call] } told where
  device := rfl
  calls := congrArg (· ++ [call]) hfollows.calls
  link := hfollows.link

variable (hW : W.Linked arrive queues)
include hW

theorem reply_follows {response : PDU} {txnId : UInt16} (hfollows : Follows queues s t told)
    (h : server.reply W.toTransport response txnId s = .ok s') :
    ∃ t', server.reply Queues.link response txnId t = .ok t' ∧ Follows queues s' t' told := by
  obtain ⟨outbox, hqueues, hmbap, htold⟩ := hfollows.link
  obtain ⟨net', hsend, hqueues'⟩ :=
    hW.send (FrameCodec.wrapTcp server.unitId response txnId) s.net _ hqueues
  rw [Server.reply, hsend, ok_bind] at h
  cases h
  refine ⟨_, rfl, hfollows.device, hfollows.calls, _, hqueues', ?_, ?_⟩
  · rw [List.filter_append, hmbap, List.filter_singleton, isMbap_wrapTcp, cond_true]
  · rw [List.filter_append, htold, List.filter_singleton, isMbap_wrapTcp, Bool.not_true,
      cond_false, List.append_nil]

section handlers

variable {request : PDU} {txnId : UInt16}

theorem handleRead_follows {handler : ReadHandler σ} (hfollows : Follows queues s t told)
    (h : server.handleRead W.toTransport handler request txnId s = .ok s') :
    ∃ t', server.handleRead Queues.link handler request txnId t = .ok t' ∧
      Follows queues s' t' told := by
  unfold Server.handleRead at h ⊢
  rw [← hfollows.device]
  split at h
  · rename_i a₁ a₀ c₁ c₀ rest _
    generalize handler (word a₁ a₀) (word c₁ c₀) s.device = verdict at h ⊢
    obtain ⟨regs | ec, device⟩ := verdict
    · exact reply_follows hW (hfollows.called device _) h
    · exact reply_follows hW (hfollows.called device _) h
  · cases h
    exact ⟨t, rfl, hfollows⟩

theorem handleWriteSingle_follows {handler : WriteHandler σ} (hfollows : Follows queues s t told)
    (h : server.handleWriteSingle W.toTransport handler request txnId s = .ok s') :
    ∃ t', server.handleWriteSingle Queues.link handler request txnId t = .ok t' ∧
      Follows queues s' t' told := by
  unfold Server.handleWriteSingle at h ⊢
  rw [← hfollows.device]
  split at h
  · exact reply_follows hW (hfollows.called _ _) h
  · cases h
    exact ⟨t, rfl, hfollows⟩

theorem handleWriteMultiple_follows {handler : WriteHandler σ} (hfollows : Follows queues s t told)
    (h : server.handleWriteMultiple W.toTransport handler request txnId s = .ok s') :
    ∃ t', server.handleWriteMultiple Queues.link handler request txnId t = .ok t' ∧
      Follows queues s' t' told := by
  unfold Server.handleWriteMultiple at h ⊢
  rw [← hfollows.device]
  split at h
  · exact reply_follows hW (hfollows.called _ _) h
  · cases h
    exact ⟨t, rfl, hfollows⟩

theorem handleRequest_follows (hfollows : Follows queues s t told)
    (h : server.handleRequest W.toTransport request txnId s = .ok s') :
    ∃ t', server.handleRequest Queues.link request txnId t = .ok t' ∧
      Follows queues s' t' told := by
  unfold Server.handleRequest at h ⊢
  split_ifs at h ⊢
  · cases hread : server.readHandler with
    | none =>
      rw [hread] at h
      cases h
      exact ⟨t, rfl, hfollows⟩
    | some handler =>
      rw [hread] at h
      exact handleRead_follows hW hfollows h
  · cases hwrite : server.writeHandler with
    | none =>
      rw [hwrite] at h
      cases h
      exact ⟨t, rfl, hfollows⟩
    | some handler =>
      rw [hwrite] at h
      exact handleWriteSingle_follows hW hfollows h
  · cases hwrite : server.writeHandler with
    | none =>
      rw [hwrite] at h
      cases h
      exact ⟨t, rfl, hfollows⟩
    | some handler =>
      rw [hwrite] at h
      exact handleWriteMultiple_follows hW hfollows h
  · cases h
    exact ⟨t, rfl, hfollows⟩

end handlers

theorem receive_follows {timeout : ℕ} {recv : Result (List UInt8)} {net' : τ}
    (hfollows : Follows queues s t told) (h : W.receive timeout s.net = .ok (recv, net')) :
    ∃ q', Queues.link.receive timeout t.net = .ok (recv, q') ∧
      Follows queues { s with net := net' } { t with net := q' } told := by
  obtain ⟨outbox, hqueues, hmbap, htold⟩ := hfollows.link
  cases hinbox : t.net.inbox with
  | nil =>
    obtain ⟨net'', hreceive, hqueues'⟩ := hW.receive_nil timeout s.net _ hqueues hinbox
    rw [hreceive] at h
    cases h
    refine ⟨t.net, by simp only [Queues.link, hinbox], hfollows.device, hfollows.calls, outbox,
      hqueues', hmbap, htold⟩
  | cons frame inbox =>
    obtain ⟨net'', hreceive, hqueues'⟩ := hW.receive_cons timeout s.net _ frame inbox hqueues hinbox
    rw [hreceive] at h
    cases h
    refine ⟨{ t.net with inbox }, by simp only [Queues.link, hinbox], hfollows.device,
      hfollows.calls, outbox, hqueues', hmbap, htold⟩

theorem processOne_follows {handled : Bool} (hfollows : Follows queues s t told)
    (h : server.processOne W.toTransport s = .ok (handled, s')) :
    ∃ t', server.processOne Queues.link t = .ok (handled, t') ∧ Follows queues s' t' told := by
  unfold Server.processOne at h ⊢
  obtain ⟨⟨recv, net⟩, hreceive, h⟩ := bind_eq_ok.mp h
  obtain ⟨q', hreceive', hfollows₁⟩ := receive_follows hW hfollows hreceive
  rw [hreceive', ok_bind]
  cases recv with
  | failure ec =>
    cases h
    exact ⟨_, rfl, hfollows₁⟩
  | value bytes =>
    obtain ⟨decoded, hunwrap, h⟩ := bind_eq_ok.mp h
    simp only [hunwrap, ok_bind]
    cases decoded with
    | failure ec =>
      cases h
      exact ⟨_, rfl, hfollows₁⟩
    | value decoded =>
      obtain ⟨unit, pdu, txnId⟩ := decoded
      simp only at h ⊢
      split_ifs at h ⊢
      · cases h
        exact ⟨_, rfl, hfollows₁⟩
      · obtain ⟨s₂, hrequest, h⟩ := bind_eq_ok.mp h
        cases h
        obtain ⟨t', hrequest', hfollows'⟩ := handleRequest_follows hW hfollows₁ hrequest
        exact ⟨t', by rw [hrequest', ok_bind, pure_eq_ok], hfollows'⟩

end Linked

/-! ### The publisher beside it -/

/-- The reader does not change the device and leaves the transport alone. -/
def DataSource.LooksOn (queues : τ → Option Queues) (source : DataSource (Serving σ τ)) : Prop :=
  ∀ s values s', source.reader s = .ok (values, s') →
    s'.device = s.device ∧ s'.calls = s.calls ∧ queues s'.net = queues s.net

def PublisherCall.LooksOn (queues : τ → Option Queues) : PublisherCall (Serving σ τ) → Prop
  | .register start count reader =>
      (⟨start, count, reader, [], false⟩ : DataSource (Serving σ τ)).LooksOn queues
  | _ => True

def LoopMove.LooksOn (queues : τ → Option Queues) : LoopMove σ τ → Prop
  | .publish call => call.LooksOn queues
  | _ => True

/-- The server is as it was, but for the frames that were sent. -/
structure Rests (queues : τ → Option Queues) (inbox : List (List UInt8))
    (device : σ) (calls : List HandlerCall) (s : Serving σ τ)
    (outbox : List (List UInt8)) : Prop where
  device : s.device = device
  calls : s.calls = calls
  queues : queues s.net = some ⟨inbox, outbox⟩

section publisher

variable {W : World τ} {arrive : List UInt8 → τ → τ} {queues : τ → Option Queues}
  {inbox : List (List UInt8)}
  {device : σ} {calls : List HandlerCall}

theorem DataSource.LooksOn.keeps {source : DataSource (Serving σ τ)}
    (hlooks : source.LooksOn queues) :
    source.Keeps (Rests queues inbox device calls) := by
  rintro s values s' outbox ⟨rfl, rfl, hqueues⟩ hread
  obtain ⟨hdevice, hcalls, hsame⟩ := hlooks s values s' hread
  exact ⟨hdevice, hcalls, hsame.trans hqueues⟩

theorem filter_isMbap_pushes (pushes : List Issued) :
    (pushes.flatMap Issued.frames).filter IsMbap = [] ∧
      (pushes.flatMap Issued.frames).filter (!IsMbap ·) = pushes.flatMap Issued.frames := by
  have hall : ∀ frame ∈ pushes.flatMap Issued.frames, IsMbap frame = false := by
    intro frame hframe
    obtain ⟨i, -, hframe⟩ := List.mem_flatMap.mp hframe
    rw [Issued.frames] at hframe
    split_ifs at hframe
    · obtain rfl := List.mem_singleton.mp hframe
      exact isMbap_notification _
    · cases hframe
  constructor
  · exact List.filter_eq_nil_iff.mpr fun frame hframe => by simp [hall frame hframe]
  · exact List.filter_eq_self.mpr fun frame hframe => by simp [hall frame hframe]

variable (hW : W.Linked arrive queues)
include hW

theorem serving_records : (W.serving (σ := σ)).Records (Rests queues inbox device calls) where
  send := by
    rintro frame s result s' outbox ⟨rfl, rfl, hqueues⟩ hsend
    obtain ⟨net', hsent, hqueues'⟩ := hW.send frame s.net _ hqueues
    obtain ⟨⟨r, net⟩, hone, h⟩ := bind_eq_ok.mp hsend
    rw [hsent] at hone
    cases hone
    cases h
    exact ⟨rfl, rfl, hqueues'⟩
  now := by
    rintro s outbox ⟨rfl, rfl, hqueues⟩
    exact ⟨rfl, rfl, (hW.now s.net).trans hqueues⟩

variable {s s' : Publishing (Serving σ τ)} {t : Serving σ Queues} {told : List (List UInt8)}

/-- A scan adds its notifications, and leaves everything else. -/
theorem scan_rests {log : List (List (Option Issued))} {outbox : List (List UInt8)}
    (hlooks : ∀ source ∈ s.publisher.sources, source.LooksOn queues)
    (hrests : Rests queues inbox device calls s.net outbox)
    (h : Publisher.scanAndNotify W.serving s = .ok (log, s')) :
    (∀ source ∈ s'.publisher.sources, source.LooksOn queues) ∧
      Rests queues inbox device calls s'.net
        (outbox ++ (log.flatMap fun row => row.flatMap Option.toList).flatMap Issued.frames) := by
  refine ⟨?_, Publisher.scanAndNotify_records (serving_records hW)
    (fun source hsource => (hlooks source hsource).keeps) hrests h⟩
  intro source' hsource'
  have hscan : Publisher.scan W.serving () s = .ok (⟨log, s, s'⟩, s') := by
    rw [Publisher.scan, h]
    rfl
  obtain ⟨source, hsource, hreader⟩ := Publisher.scan_readers hscan source' hsource'
  rw [DataSource.LooksOn, hreader]
  exact hlooks source hsource

theorem scan_follows {log : List (List (Option Issued))}
    (hlooks : ∀ source ∈ s.publisher.sources, source.LooksOn queues)
    (hfollows : Follows queues s.net t told)
    (h : Publisher.scanAndNotify W.serving s = .ok (log, s')) :
    (∀ source ∈ s'.publisher.sources, source.LooksOn queues) ∧
      Follows queues s'.net t
        (told ++ (log.flatMap fun row => row.flatMap Option.toList).flatMap Issued.frames) := by
  obtain ⟨outbox, hqueues, hmbap, htold⟩ := hfollows.link
  obtain ⟨hlooks', hrests⟩ := scan_rests hW hlooks ⟨hfollows.device, hfollows.calls, hqueues⟩ h
  obtain ⟨hnone, hall⟩ := filter_isMbap_pushes (log.flatMap fun row => row.flatMap Option.toList)
  refine ⟨hlooks', hrests.device, hrests.calls, _, hrests.queues, ?_, ?_⟩
  · rw [List.filter_append, hmbap, hnone, List.append_nil]
  · rw [List.filter_append, htold, hall]

theorem perform_follows {call : PublisherCall (Serving σ τ)} {outcome : PublisherOutcome}
    (hlooks : ∀ source ∈ s.publisher.sources, source.LooksOn queues) (hcall : call.LooksOn queues)
    (hfollows : Follows queues s.net t told)
    (h : Publisher.perform W.serving call s = .ok (outcome, s')) :
    (∀ source ∈ s'.publisher.sources, source.LooksOn queues) ∧
      Follows queues s'.net t
        (told ++ (LoopEvent.published (σ := σ) outcome).pushes.flatMap Issued.frames) := by
  have hnothing {s₁ : Serving σ τ} (hfollows : Follows queues s₁ t told)
      (hnone : (LoopEvent.published (σ := σ) outcome).pushes = []) :
      Follows queues s₁ t
        (told ++ (LoopEvent.published (σ := σ) outcome).pushes.flatMap Issued.frames) := by
    rwa [hnone, List.flatMap_nil, List.append_nil]
  cases call with
  | register start count reader =>
    cases h
    exact ⟨List.forall_mem_append.mpr ⟨hlooks, List.forall_mem_singleton.mpr hcall⟩,
      hnothing hfollows rfl⟩
  | accept request =>
    obtain ⟨rfl, -, -, hsources, hnet⟩ := Publisher.perform_accept h
    obtain ⟨outbox, hqueues, hmbap, htold⟩ := hfollows.link
    rw [hsources, hnet]
    exact ⟨hlooks, hnothing
      ⟨hfollows.device, hfollows.calls, outbox, (hW.now _).trans hqueues, hmbap, htold⟩ rfl⟩
  | remove id =>
    obtain ⟨result, rfl, -, -, -, hsources, hnet⟩ := Publisher.perform_remove h
    rw [hsources, hnet]
    exact ⟨hlooks, hnothing hfollows rfl⟩
  | scan =>
    obtain ⟨⟨log, t'⟩, hscan, h⟩ := bind_eq_ok.mp h
    cases h
    exact scan_follows hW hlooks hfollows hscan

theorem loopStep_follows {server : Server σ} {move : LoopMove σ τ} {e : LoopEvent σ}
    (hlooks : ∀ source ∈ s.publisher.sources, source.LooksOn queues) (hmove : move.LooksOn queues)
    (hfollows : Follows queues s.net t told) (h : server.loopStep W arrive move s = .ok (e, s')) :
    (∀ source ∈ s'.publisher.sources, source.LooksOn queues) ∧
      ∃ t', Follows queues s'.net t' (told ++ e.pushes.flatMap Issued.frames) ∧
        (move.plain = none → t' = t ∧ e.handled = []) ∧
        ∀ plain, move.plain = some plain → server.plainStep plain t = .ok (e.handled, t') := by
  cases move with
  | arrive frame =>
    cases h
    obtain ⟨outbox, hqueues, hmbap, htold⟩ := hfollows.link
    refine ⟨hlooks, { t with net := t.net.arrive frame }, ?_, nofun, ?_⟩
    · refine ⟨hfollows.device, hfollows.calls, outbox, hW.arrive frame _ _ hqueues, hmbap, ?_⟩
      rw [htold]
      exact (List.append_nil told).symm
    · rintro plain ⟨⟩
      rfl
  | turn =>
    obtain ⟨⟨⟨handled, log⟩, s₁⟩, hturn, h⟩ := bind_eq_ok.mp h
    cases h
    obtain ⟨⟨handled', net⟩, hone, hturn⟩ := bind_eq_ok.mp hturn
    obtain ⟨⟨log', s₂⟩, hscan, hturn⟩ := bind_eq_ok.mp hturn
    cases hturn
    obtain ⟨t', hplain, hfollows'⟩ := processOne_follows hW hfollows hone
    obtain ⟨hlooks', hfollows''⟩ := scan_follows hW (s := { s with net }) hlooks hfollows' hscan
    refine ⟨hlooks', t', hfollows'', nofun, ?_⟩
    rintro plain ⟨⟩
    rw [Server.plainStep, hplain]
    rfl
  | publish call =>
    obtain ⟨⟨outcome, s₁⟩, hperform, h⟩ := bind_eq_ok.mp h
    cases h
    obtain ⟨hlooks', hfollows'⟩ := perform_follows hW hlooks hmove hfollows hperform
    exact ⟨hlooks', t, hfollows', fun _ => ⟨rfl, rfl⟩, nofun⟩

theorem loop_refines (server : Server σ) :
    Refines (server.loopStep W arrive) server.plainStep LoopMove.plain (LoopMove.LooksOn queues)
      (fun s t => (∀ source ∈ s.publisher.sources, source.LooksOn queues) ∧
        ∃ told, Follows queues s.net t told)
      LoopEvent.handled id where
  stutters := by
    rintro move s e s' t hplain hmove ⟨hlooks, told, hfollows⟩ h
    obtain ⟨hlooks', t', hfollows', hnone, -⟩ := loopStep_follows hW hlooks hmove hfollows h
    obtain ⟨rfl, hhandled⟩ := hnone hplain
    exact ⟨⟨hlooks', _, hfollows'⟩, hhandled⟩
  lowers := by
    rintro move plain s e s' t hplain hmove ⟨hlooks, told, hfollows⟩ h
    obtain ⟨hlooks', t', hfollows', -, hsome⟩ := loopStep_follows hW hlooks hmove hfollows h
    exact ⟨e.handled, t', hsome plain hplain, ⟨hlooks', _, hfollows'⟩, rfl⟩

end publisher

namespace Loopback

/-- The server's end, with a clock that stands still. -/
def serverWorld : World Loopback where
  toTransport := serverEnd
  isConnected l := l.server.connected
  now l := (⟨0⟩, l)

/-- The client's end sends a frame. -/
def peerSends (frame : List UInt8) (l : Loopback) : Loopback :=
  let (_, client, toServer) := l.client.send frame l.toServer
  { l with client, toServer }

/-- The queues of a pair with both ends connected and no errors to come. -/
def queues (l : Loopback) : Option Queues :=
  if l.client = ({} : LoopbackEndpoint).connect ∧ l.server = ({} : LoopbackEndpoint).connect then
    some ⟨l.toServer, l.toClient⟩
  else none

theorem queues_eq_some {l : Loopback} {q : Queues} :
    l.queues = some q ↔ l =
      ⟨({} : LoopbackEndpoint).connect, ({} : LoopbackEndpoint).connect, q.inbox, q.outbox⟩ := by
  obtain ⟨client, server, toServer, toClient⟩ := l
  constructor
  · intro h
    rw [queues] at h
    split_ifs at h with hup
    obtain ⟨rfl, rfl⟩ := hup
    cases h
    rfl
  · rintro ⟨⟩
    rfl

theorem serverWorld_linked : serverWorld.Linked peerSends queues where
  send := by
    rintro frame l ⟨inbox, outbox⟩ hqueues
    obtain rfl := queues_eq_some.mp hqueues
    exact ⟨_, rfl, rfl⟩
  receive_nil := by
    rintro timeout l ⟨inbox, outbox⟩ hqueues ⟨⟩
    obtain rfl := queues_eq_some.mp hqueues
    exact ⟨_, rfl, rfl⟩
  receive_cons := by
    rintro timeout l ⟨inbox, outbox⟩ frame inbox' hqueues ⟨⟩
    obtain rfl := queues_eq_some.mp hqueues
    exact ⟨_, rfl, rfl⟩
  now _ := rfl
  arrive := by
    rintro frame l ⟨inbox, outbox⟩ hqueues
    obtain rfl := queues_eq_some.mp hqueues
    rfl

end Loopback

/-- A server of one register. -/
def meter : Server UInt16 where
  readHandler := some fun _ _ value => (.value [value], value)
  writeHandler := some fun _ values value => (.ok, values.headD value)

/-- The meter with a publisher for its register, and a subscription to every change. -/
def meterStart (value : UInt16) : Publishing (Serving UInt16 Loopback) where
  publisher := {
    sources := [{ start := 0, count := 1, reader := fun s => .ok ([s.device], s) }]
    subscriptions := [⟨1, {}, ⟨0⟩⟩] }
  net := ⟨.connectedPair, value, []⟩

theorem meterStart_looks (value : UInt16) :
    ∀ source ∈ (meterStart value).publisher.sources, source.LooksOn Loopback.queues := by
  rintro source hsource
  obtain rfl := List.mem_singleton.mp hsource
  rintro s values s' ⟨⟩
  exact ⟨rfl, rfl, rfl⟩

/-- A write arrives and then a read, each followed by a turn. -/
def writeThenRead : List (List UInt8) :=
  [Client.requestFrame {} 1 (Client.writeSingleRequest 0 7),
    Client.requestFrame { nextTransactionId := 2 } 1 (Client.readHoldingRequest 0 1)]

end ModbusPp

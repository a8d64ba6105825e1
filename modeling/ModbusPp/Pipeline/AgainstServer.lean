import Mathlib.Data.List.ReduceOption
import ModbusPp.Client.AgainstServer
import ModbusPp.Core.PduAcceptance
import ModbusPp.Pipeline.PipelineRuns

/-! A pipeline against a server over the loopback pair. The pipeline sends the extended
PDU as it is, and the server takes the first seven bytes of what it receives for an MBAP
header: the correlation id for the length, the extended function code for the unit, and
the payload length for the beginning of the PDU. No read gets as far as the handler. -/

namespace ModbusPp

open Foundation

namespace Pipeline

/-- The frame of a read under a correlation id. -/
def readFrame (corrId : CorrelationID) (addr count : UInt16) : List UInt8 :=
  (toSend corrId (Client.readHoldingRequest addr count)).serialize

theorem readFrame_eq (corrId : CorrelationID) (addr count : UInt16) :
    readFrame corrId addr count =
      [0x6E, 0x01, 0x00, 0x00, hiByte corrId, loByte corrId, 0x0A, 0x00, 0x05, 0x03,
      hiByte addr, loByte addr, hiByte count, loByte count] := by
  simp [readFrame, toSend, Client.readHoldingRequest, PDU.makeStandard, PDU.makeExtended,
    PDU.serialize, PDU.timestampBytes, PDU.hmacBytes, PDU.extendedFlags]
  decide

theorem unwrapTcp_readFrame {corrId : CorrelationID} {addr count : UInt16}
    {unitId : UInt8} {pdu : PDU} {transactionId : UInt16}
    (h : FrameCodec.unwrapTcp (.ofList (readFrame corrId addr count)) =
      .ok (.value (unitId, pdu, transactionId))) :
    unitId = 10 ∧ pdu.functionCode = ⟨0⟩ := by
  obtain ⟨hunit, hdecode⟩ := FrameCodec.unwrapTcp_value h
  rw [readFrame_eq] at hunit hdecode
  obtain ⟨fc, hread, hfc, -⟩ := PDU.deserialize_shape hdecode
  cases hread
  exact ⟨hunit, hfc⟩

end Pipeline

namespace Server

variable {σ : Type} (server : Server σ)

/-- The client's end of the pair. -/
def beside : Transport (Serving σ Loopback) where
  send frame s := do
    let (r, net) ← Loopback.clientEnd.send frame s.net
    return (r, { s with net })
  receive timeout s := do
    let (r, net) ← Loopback.clientEnd.receive timeout s.net
    return (r, { s with net })

/-- Nothing but pipelined reads is under way, and nothing to the client. -/
structure Unheard (device : σ) (calls : List HandlerCall) (s : Serving σ Loopback) : Prop where
  device_eq : s.device = device
  calls_eq : s.calls = calls
  toClient_nil : s.net.toClient = []
  toServer_reads : ∀ frame ∈ s.net.toServer, ∃ corrId addr count,
    frame = Pipeline.readFrame corrId addr count

variable {server} {device : σ} {calls : List HandlerCall} {s s' : Serving σ Loopback}

theorem Unheard.send (h : Unheard device calls s) {corrId : CorrelationID}
    {addr count : UInt16} {sent : VoidResult}
    (hsend : beside.send (Pipeline.readFrame corrId addr count) s = .ok (sent, s')) :
    Unheard device calls s' := by
  obtain ⟨⟨sent', net⟩, hnet, hsend⟩ := bind_eq_ok.mp hsend
  cases hsend
  obtain ⟨htoClient, htoServer⟩ := Loopback.clientEnd_send hnet
  refine ⟨h.device_eq, h.calls_eq, htoClient.trans h.toClient_nil, ?_⟩
  rcases htoServer with hsame | happended
  · exact hsame ▸ h.toServer_reads
  · exact happended ▸ List.forall_mem_append.mpr
      ⟨h.toServer_reads, List.forall_mem_singleton.mpr ⟨corrId, addr, count, rfl⟩⟩

/-- The client receives nothing. -/
theorem Unheard.receive (h : Unheard device calls s) {timeout : ℕ} {received : Result (List UInt8)}
    (hreceive : beside.receive timeout s = .ok (received, s')) :
    (∃ ec, received = .failure ec) ∧ s' = s := by
  obtain ⟨⟨received', net⟩, hnet, hreceive⟩ := bind_eq_ok.mp hreceive
  cases hreceive
  rcases s.net.client.receive_cases s.net.toClient with ⟨ec, hfails⟩ | ⟨msg, rest, hqueue, -⟩
  · simp only [Loopback.clientEnd, hfails, Except.ok.injEq, Prod.mk.injEq] at hnet
    exact ⟨⟨ec, hnet.1.symm⟩, by rw [← hnet.2]⟩
  · rw [h.toClient_nil] at hqueue
    cases hqueue

/-- The server answers none of the reads, and does not look at the device for them. -/
theorem Unheard.processOne (h : Unheard device calls s) {handled : Bool}
    (hturn : server.processOne Loopback.serverEnd s = .ok (handled, s')) :
    Unheard device calls s' := by
  obtain ⟨⟨received, net⟩, hnet, hturn⟩ := bind_eq_ok.mp hturn
  rcases s.net.server.receive_cases s.net.toServer with ⟨ec, hfails⟩ | ⟨frame, rest, hqueue, htakes⟩
  · simp only [Loopback.serverEnd, hfails, Except.ok.injEq, Prod.mk.injEq] at hnet
    obtain ⟨rfl, rfl⟩ := hnet
    cases hturn
    exact ⟨h.device_eq, h.calls_eq, h.toClient_nil, h.toServer_reads⟩
  · simp only [Loopback.serverEnd, htakes, Except.ok.injEq, Prod.mk.injEq] at hnet
    obtain ⟨rfl, rfl⟩ := hnet
    have hreads := h.toServer_reads
    rw [hqueue] at hreads
    obtain ⟨⟨corrId, addr, count, rfl⟩, hrest⟩ := List.forall_mem_cons.mp hreads
    have hkept : Unheard device calls { s with net := { s.net with toServer := rest } } :=
      ⟨h.device_eq, h.calls_eq, h.toClient_nil, hrest⟩
    obtain ⟨decoded, hdecode, hturn⟩ := bind_eq_ok.mp hturn
    cases decoded with
    | failure ec =>
      cases hturn
      exact hkept
    | value request =>
      obtain ⟨unit, pdu, txnId⟩ := request
      obtain ⟨-, hfc⟩ := Pipeline.unwrapTcp_readFrame hdecode
      dsimp only at hturn
      split_ifs at hturn
      · cases hturn
        exact hkept
      · -- function code 0 has no branch in the dispatch
        have hunhandled : server.handleRequest Loopback.serverEnd pdu txnId
            { s with net := { s.net with toServer := rest } } =
              .ok { s with net := { s.net with toServer := rest } } := by
          rw [Server.handleRequest, hfc, if_neg (by decide), if_neg (by decide),
            if_neg (by decide), pure_eq_ok]
        rw [hunhandled] at hturn
        cases hturn
        exact hkept

end Server

/-- A read submitted to the pipeline, a poll, or a turn of the server. -/
inductive PipelinedCall
  | read (addr count : UInt16) (timeout : Milliseconds) (now : Timestamp)
  | poll (matchedAt sweptAt : Timestamp)
  | processOne
  deriving DecidableEq

def PipelinedCall.isRead : PipelinedCall → Bool
  | .read _ _ _ _ => true
  | _ => false

namespace PipelineUse

variable {σ : Type} (server : Server σ)

/-- Make a call; the turns of the server are no events of the pipeline. -/
def pipelinedStep (call : PipelinedCall) (s : PipelineUse (Serving σ Loopback)) :
    Checked (Option (PipelineEvent (Serving σ Loopback)) × PipelineUse (Serving σ Loopback)) :=
  match call with
  | .read addr count timeout now => do
    let (e, s) ← step Server.beside
      (.submit (Client.readHoldingRequest addr count) true timeout now) s
    return (some e, s)
  | .poll matchedAt sweptAt => do
    let (e, s) ← step Server.beside (.poll matchedAt sweptAt) s
    return (some e, s)
  | .processOne => do
    let (_, net) ← server.processOne Loopback.serverEnd s.net
    return (none, { s with net })

/-- Submission `n` got an id, and its callback a response that carries the id. -/
def Answered (n : ℕ) (events : List (PipelineEvent (Serving σ Loopback))) : Prop :=
  ∃ id pdu, (∃ e ∈ events, e.before.submissions = n ∧ e.outcome = .submitted (.value id)) ∧
    (∃ e ∈ events, ⟨⟨n, true⟩, .value pdu⟩ ∈ e.log.invoked) ∧ Pipeline.correlationOf pdu = id

variable {server} {device : σ} {calls : List HandlerCall} {s s' : PipelineUse (Serving σ Loopback)}

theorem pipelinedStep_unheard {call : PipelinedCall}
    {e : Option (PipelineEvent (Serving σ Loopback))} (h : Server.Unheard device calls s.net)
    (hstep : pipelinedStep server call s = .ok (e, s')) :
    Server.Unheard device calls s'.net ∧ ∀ e' ∈ e, e'.log.invoked = [] := by
  cases call with
  | read addr count timeout now =>
    obtain ⟨⟨e', t⟩, hmade, hstep⟩ := bind_eq_ok.mp hstep
    cases hstep
    obtain ⟨result, hsubmit, -, rfl⟩ := step_submit hmade
    obtain ⟨sent, queue, hsend, -, -⟩ := Pipeline.submit_cases Server.beside hsubmit
    refine ⟨h.send hsend, ?_⟩
    rintro e' ⟨⟩
    rfl
  | poll matchedAt sweptAt =>
    obtain ⟨⟨e', t⟩, hmade, hstep⟩ := bind_eq_ok.mp hstep
    cases hstep
    obtain ⟨log, hpoll, -, rfl⟩ := step_poll hmade
    rcases Pipeline.poll_inv Server.beside hpoll with ⟨ec, hreceive, rfl, -⟩ |
      ⟨frame, decoded, hreceive, -⟩
    · obtain ⟨-, hsame⟩ := h.receive hreceive
      rw [hsame]
      refine ⟨h, ?_⟩
      rintro e' ⟨⟩
      rfl
    · obtain ⟨⟨ec, hec⟩, -⟩ := h.receive hreceive
      cases hec
  | processOne =>
    obtain ⟨⟨handled, net⟩, hturn, hstep⟩ := bind_eq_ok.mp hstep
    cases hstep
    refine ⟨h.processOne hturn, ?_⟩
    rintro e' ⟨⟩

theorem pipelined_unheard {moves : List PipelinedCall}
    {events : List (Option (PipelineEvent (Serving σ Loopback)))}
    (h : Server.Unheard device calls s.net)
    (hrun : runAll (pipelinedStep server) moves s = .ok (events, s')) :
    Server.Unheard device calls s'.net ∧ ∀ e ∈ events.reduceOption, e.log.invoked = [] := by
  obtain ⟨hlast, hall⟩ := runAll_keeps (fun s => Server.Unheard device calls s.net)
    (fun e : Option (PipelineEvent (Serving σ Loopback)) => ∀ e' ∈ e, e'.log.invoked = [])
    (fun _ _ _ _ hs hstep => pipelinedStep_unheard hs hstep) moves h hrun
  exact ⟨hlast, fun e he => hall _ (List.reduceOption_mem_iff.mp he) e rfl⟩

theorem never_answered {config : PipelineConfig} {moves more : List PipelinedCall}
    {events events' : List (Option (PipelineEvent (Serving σ Loopback)))}
    {last last' : PipelineUse (Serving σ Loopback)}
    (hrun : runAll (pipelinedStep server) moves (start config (Server.quiet device calls)) =
      .ok (events, last))
    (hmore : runAll (pipelinedStep server) more last = .ok (events', last')) (n : ℕ) :
    ¬Answered n (events ++ events').reduceOption := by
  rintro ⟨id, pdu, -, ⟨e, he, hinvoked⟩, -⟩
  have hstart : Server.Unheard device calls (start config (Server.quiet device calls)).net :=
    ⟨rfl, rfl, rfl, List.forall_mem_nil _⟩
  rw [(pipelined_unheard hstart (runAll_append hrun hmore)).2 e he] at hinvoked
  cases hinvoked

/-- In a run of reads, polls and turns of the server, every read submitted gets its
response in some continuation of the run if and only if no read has been submitted. -/
theorem pipelined_answered_iff {config : PipelineConfig} {moves : List PipelinedCall}
    {events : List (Option (PipelineEvent (Serving σ Loopback)))}
    {last : PipelineUse (Serving σ Loopback)}
    (hrun : runAll (pipelinedStep server) moves (start config (Server.quiet device calls)) =
      .ok (events, last)) :
    (∀ n < moves.countP PipelinedCall.isRead, ∃ more events' last',
      (∀ call ∈ more, call.isRead = false) ∧
      runAll (pipelinedStep server) more last = .ok (events', last') ∧
      Answered n (events ++ events').reduceOption) ↔
      ∀ call ∈ moves, call.isRead = false := by
  constructor
  · intro hall
    by_contra hsome
    have hpos : 0 < moves.countP PipelinedCall.isRead := by
      rw [List.countP_pos_iff]
      simpa using hsome
    obtain ⟨more, events', last', -, hmore, hanswered⟩ := hall 0 hpos
    exact never_answered hrun hmore 0 hanswered
  · intro hnone n hn
    rw [List.countP_eq_zero.mpr fun call hcall => by simp [hnone call hcall]] at hn
    exact absurd hn (Nat.not_lt_zero n)

/-- A server whose registers all hold 42. -/
def fortyTwo : Server Unit where
  readHandler := some fun _ count s => (.value (List.replicate count.toNat 42), s)

/-- The condition leaves out every run with a read, so this is all there is to see of it: a
poll and a turn of the server, and then the same with a read, which stays unanswered. -/
theorem pipelined_answered_alone : ∃ events last events' last',
    runAll (pipelinedStep fortyTwo) [.poll ⟨0⟩ ⟨0⟩, .processOne] (start {} (Server.quiet () [])) =
      .ok (events, last) ∧
    runAll (pipelinedStep fortyTwo) [.poll ⟨0⟩ ⟨0⟩, .read 0 4 0 ⟨0⟩, .processOne]
      (start {} (Server.quiet () [])) = .ok (events', last') ∧
    (∀ n < 0, ∃ more events₂ last₂, (∀ call ∈ more, PipelinedCall.isRead call = false) ∧
      runAll (pipelinedStep fortyTwo) more last = .ok (events₂, last₂) ∧
      Answered n (events ++ events₂).reduceOption) ∧
    ¬∀ n < 1, ∃ more events₂ last₂, (∀ call ∈ more, PipelinedCall.isRead call = false) ∧
      runAll (pipelinedStep fortyTwo) more last' = .ok (events₂, last₂) ∧
      Answered n (events' ++ events₂).reduceOption := by
  obtain ⟨events, last, hrun⟩ :
    ∃ events last, runAll (pipelinedStep fortyTwo) [.poll ⟨0⟩ ⟨0⟩, .processOne]
      (start {} (Server.quiet () [])) = .ok (events, last) := ⟨_, _, rfl⟩
  obtain ⟨events', last', hrun'⟩ : ∃ events last, runAll (pipelinedStep fortyTwo)
      [.poll ⟨0⟩ ⟨0⟩, .read 0 4 0 ⟨0⟩, .processOne] (start {} (Server.quiet () [])) =
        .ok (events, last) := ⟨_, _, rfl⟩
  refine ⟨events, last, events', last', hrun, hrun', (pipelined_answered_iff hrun).mpr (by decide),
    fun hall => ?_⟩
  exact absurd ((pipelined_answered_iff hrun').mp hall) (by decide)

/-- A server of unit 1 drops the first read, and no continuation answers it. -/
theorem pipelined_read_unanswered : ∃ events last,
    runAll (pipelinedStep fortyTwo) [.read 0 4 0 ⟨0⟩, .processOne, .poll ⟨1⟩ ⟨1⟩]
      (start {} (Server.quiet () [])) = .ok (events, last) ∧
    ¬∃ more events' last', (∀ call ∈ more, PipelinedCall.isRead call = false) ∧
      runAll (pipelinedStep fortyTwo) more last = .ok (events', last') ∧
      Answered 0 (events ++ events').reduceOption := by
  obtain ⟨events, last, hrun⟩ :
    ∃ events last, runAll (pipelinedStep fortyTwo) [.read 0 4 0 ⟨0⟩, .processOne, .poll ⟨1⟩ ⟨1⟩]
      (start {} (Server.quiet () [])) = .ok (events, last) := ⟨_, _, rfl⟩
  refine ⟨events, last, hrun, ?_⟩
  rintro ⟨more, events', last', -, hmore, hanswered⟩
  exact never_answered hrun hmore 0 hanswered

end PipelineUse

end ModbusPp

import ModbusPp.Pipeline.PipelineRuns
import ModbusPp.PubSub.Subscriber
import ModbusPp.Transport.Loopback

/-! The client hands its one transport to the pipeline and to the subscriber
(`Client::Client`). Each of the two polls takes whatever comes in, and passes over
what is not meant for it. The frames may come in any order, and the calls may be
made in any order: a poll of the subscriber that is cut short is followed by one
for the rest of its turns. -/

namespace ModbusPp

open Foundation

variable {τ : Type}

/-- The pipeline and the subscriber of a client in use. -/
structure ClientUse (τ : Type) extends PipelineUse τ where
  subscriber : Subscriber := {}

inductive ClientCall
  | pipeline (call : PipelineCall)
  | onEvent (id : SubscriptionID) (handler : ℕ)
  | removeHandler (id : SubscriptionID)
  | pollSubscriber (readings : List Timestamp)

inductive ClientOutcome (τ : Type)
  | pipeline (e : PipelineEvent τ)
  | handlers
  | polled (log : SubscriberLog)

/-- A call that returned, and the state before it. -/
structure ClientEvent (τ : Type) where
  call : ClientCall
  outcome : ClientOutcome τ
  before : ClientUse τ

/-- Every frame that the event took off the transport, if the pipeline or the
subscriber was waiting for it, went to its callback or to its handler. -/
def ClientEvent.Delivers (e : ClientEvent τ) : Prop :=
  match e.outcome with
  | .pipeline pe => ∀ frame, pe.log.frame = some frame →
      e.before.pipeline.Awaits frame ∨ e.before.subscriber.Awaits frame →
        e.before.pipeline.Dispatched frame pe.log
  | .handlers => True
  | .polled log => ∀ t ∈ log.taken,
      e.before.pipeline.Awaits t.frame ∨ e.before.subscriber.Awaits t.frame →
        e.before.subscriber.Dispatched t

namespace ClientUse

variable (W : World τ)

def start (config : PipelineConfig) (net : τ) : ClientUse τ where
  toPipelineUse := .start config net

def step (call : ClientCall) (s : ClientUse τ) : Checked (ClientEvent τ × ClientUse τ) :=
  match call with
  | .pipeline pipelineCall => do
    let (e, use) ← PipelineUse.step W.toTransport pipelineCall s.toPipelineUse
    return (⟨call, .pipeline e, s⟩, { s with toPipelineUse := use })
  | .onEvent id handler =>
      return (⟨call, .handlers, s⟩, { s with subscriber := s.subscriber.onEvent id handler })
  | .removeHandler id =>
      return (⟨call, .handlers, s⟩, { s with subscriber := s.subscriber.removeHandler id })
  | .pollSubscriber readings => do
    let (log, net) ← s.subscriber.poll W readings s.net
    return (⟨call, .polled log, s⟩, { s with net })

/-- What comes in for the call is not awaited by the other party alone. -/
def OwnFrames (s : ClientUse τ) (call : ClientCall) : Prop :=
  match call with
  | .pipeline (.poll _ _) =>
    ∀ frame ∈ W.incoming 1 s.net, s.subscriber.Awaits frame → s.pipeline.Awaits frame
  | .pollSubscriber readings => W.isConnected s.net = true →
    ∀ frame ∈ W.incoming readings.length s.net, s.pipeline.Awaits frame → s.subscriber.Awaits frame
  | _ => True

variable {W} {s s' : ClientUse τ} {e : ClientEvent τ}

theorem step_pipeline_delivers_iff {call : PipelineCall}
    (h : step W (.pipeline call) s = .ok (e, s')) :
    e.Delivers ↔ s.OwnFrames W (.pipeline call) := by
  obtain ⟨⟨pe, use⟩, hstep, h⟩ := bind_eq_ok.mp h
  cases h
  cases call with
  | submit request hasCallback timeout now =>
    obtain ⟨result, -, -, rfl⟩ := PipelineUse.step_submit hstep
    exact iff_of_true nofun trivial
  | poll matchedAt sweptAt =>
    obtain ⟨log, hpoll, -, rfl⟩ := PipelineUse.step_poll hstep
    have hframe : W.incoming 1 s.net = log.frame.toList := Pipeline.poll_frame W.toTransport hpoll
    constructor
    · intro hdelivers frame hcomes hawaited
      rw [hframe, Option.mem_toList] at hcomes
      exact (Pipeline.poll_dispatched W.toTransport hpoll hcomes).mp
        (hdelivers frame hcomes (.inr hawaited))
    · rintro hown frame hcomes hawaited
      refine (Pipeline.poll_dispatched W.toTransport hpoll hcomes).mpr (hawaited.elim id ?_)
      exact hown frame (by rw [hframe, Option.mem_toList]; exact hcomes)
  | cancel id =>
    obtain ⟨-, -, rfl⟩ := PipelineUse.step_cancel hstep
    exact iff_of_true nofun trivial

theorem step_poll_delivers_iff {readings : List Timestamp}
    (h : step W (.pollSubscriber readings) s = .ok (e, s')) :
    e.Delivers ↔ s.OwnFrames W (.pollSubscriber readings) := by
  obtain ⟨⟨log, net⟩, hpoll, h⟩ := bind_eq_ok.mp h
  cases h
  rw [Subscriber.poll] at hpoll
  split at hpoll
  · rename_i hconnected
    obtain ⟨hframes, hdispatched⟩ := Subscriber.pollLoop_spec hpoll
    constructor
    · intro hdelivers _ frame hcomes hawaited
      rw [← hframes] at hcomes
      obtain ⟨t, ht, rfl⟩ := List.mem_map.mp hcomes
      exact (hdispatched t ht).mp (hdelivers t ht (.inl hawaited))
    · intro hown t ht hawaited
      refine (hdispatched t ht).mpr (hawaited.elim ?_ id)
      exact hown hconnected t.frame (hframes ▸ List.mem_map_of_mem ht)
  · rename_i hconnected
    cases hpoll
    exact iff_of_true nofun (fun h => absurd h hconnected)

theorem step_delivers_iff {call : ClientCall} (h : step W call s = .ok (e, s')) :
    e.call = call ∧ e.before = s ∧ (e.Delivers ↔ s.OwnFrames W call) := by
  cases call with
  | pipeline call =>
    refine ⟨?_, ?_, step_pipeline_delivers_iff h⟩ <;>
      (obtain ⟨_, -, h⟩ := bind_eq_ok.mp h; cases h; rfl)
  | onEvent id handler =>
    cases h
    exact ⟨rfl, rfl, .rfl⟩
  | removeHandler id =>
    cases h
    exact ⟨rfl, rfl, .rfl⟩
  | pollSubscriber readings =>
    refine ⟨?_, ?_, step_poll_delivers_iff h⟩ <;>
      (obtain ⟨_, -, h⟩ := bind_eq_ok.mp h; cases h; rfl)

/-- In every run, whatever is awaited is delivered exactly if no poll is met by a
frame that the other party alone awaits. -/
theorem delivers_iff {config : PipelineConfig} {net : τ} {calls : List ClientCall}
    {events : List (ClientEvent τ)} {last : ClientUse τ}
    (hrun : runAll (step W) calls (start config net) = .ok (events, last))
    (he : e ∈ events) : e.Delivers ↔ e.before.OwnFrames W e.call := by
  refine (runAll_keeps (fun _ => True) (fun e => e.Delivers ↔ e.before.OwnFrames W e.call)
    ?_ calls trivial hrun).2 e he
  rintro call s e s' - hstep
  obtain ⟨hcall, hbefore, hiff⟩ := step_delivers_iff hstep
  rw [hcall, hbefore]
  exact ⟨trivial, hiff⟩

/-- The client's end of the loopback transport. -/
def clientWorld : World Loopback where
  toTransport := Loopback.clientEnd
  isConnected l := l.client.connected
  now l := (⟨0⟩, l)

/-- The response to the first request of a pipeline. -/
def firstResponse : List UInt8 := (PDU.makeExtended { correlationId := 1 } [0, 7]).serialize

/-- A notification of subscription 1. -/
def firstEvent : List UInt8 := EventNotification.frame ⟨1, 0, ⟨0⟩, [100], []⟩

/-- One request, one handler, and one poll of each party. -/
def pollBoth : List ClientCall :=
  [.pipeline (.submit (.makeStandard .readHoldingRegisters [0, 0, 0, 1]) true 0 ⟨0⟩), .onEvent 1 7,
    .pipeline (.poll ⟨0⟩ ⟨0⟩), .pollSubscriber [⟨0⟩, ⟨0⟩]]

def withIncoming (toClient : List (List UInt8)) : Loopback :=
  { Loopback.connectedPair with toClient }

theorem delivers_in_turn : ∃ e₁ e₂ e₃ e₄ last,
    runAll (step clientWorld) pollBoth (start {} (withIncoming [firstResponse, firstEvent])) =
      .ok ([e₁, e₂, e₃, e₄], last) ∧ e₃.Delivers ∧ e₄.Delivers ∧ last.net.toClient = [] := by
  obtain ⟨e₁, e₂, e₃, e₄, last, hrun, hpipeline, hsubscriber, hnone⟩ : ∃ e₁ e₂ e₃ e₄ last,
      runAll (step clientWorld) pollBoth (start {} (withIncoming [firstResponse, firstEvent])) =
        .ok ([e₁, e₂, e₃, e₄], last) ∧ e₃.before.OwnFrames clientWorld e₃.call ∧
      e₄.before.OwnFrames clientWorld e₄.call ∧ last.net.toClient = [] := by
    refine ⟨_, _, _, _, _, rfl, ?_, ?_, rfl⟩
    · intro frame hframe _
      obtain rfl := List.mem_singleton.mp hframe
      exact ⟨_, rfl, by decide⟩
    · intro _ frame hframe _
      obtain rfl := List.mem_singleton.mp hframe
      exact ⟨_, ⟨_, _, rfl, rfl⟩, by decide⟩
  exact ⟨e₁, e₂, e₃, e₄, last, hrun, (delivers_iff hrun (by simp)).mpr hpipeline,
    (delivers_iff hrun (by simp)).mpr hsubscriber, hnone⟩

/-- The notification comes first: the pipeline drops it, and the subscriber then
drops the response. -/
theorem both_dropped : ∃ e₁ e₂ e₃ e₄ last,
    runAll (step clientWorld) pollBoth (start {} (withIncoming [firstEvent, firstResponse])) =
      .ok ([e₁, e₂, e₃, e₄], last) ∧ ¬e₃.Delivers ∧ ¬e₄.Delivers ∧
      last.net.toClient = [] ∧ last.pipeline.inFlightCount = 1 := by
  refine ⟨_, _, _, _, _, rfl, ?_, ?_, rfl, rfl⟩
  · intro hdelivers
    have hawaited : Subscriber.Awaits ⟨[(1, 7)]⟩ firstEvent := ⟨_, ⟨_, _, rfl, rfl⟩, by decide⟩
    obtain ⟨pdu, r, hdecode, -, hanswered, -⟩ := hdelivers firstEvent rfl (.inr hawaited)
    cases hanswered
  · intro hdelivers
    obtain ⟨notif, timestamp, handler, -, -, hnotif, -⟩ :=
      hdelivers ⟨firstResponse, none, none⟩ (by decide) (.inl ⟨_, rfl, by decide⟩)
    cases hnotif

end ClientUse

end ModbusPp

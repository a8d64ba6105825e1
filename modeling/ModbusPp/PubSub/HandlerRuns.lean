import ModbusPp.Foundation.Bindings
import ModbusPp.Foundation.Fifo
import ModbusPp.PubSub.Subscriber
import ModbusPp.Transport.Traced

/-! A subscriber whose handlers come and go while it polls. The lock is taken for every
call and, in `poll`, for every notification, so `on_event` and `remove_handler` fall
between two turns of the loop. A turn looks the handler up when it has the frame. -/

namespace ModbusPp

open Foundation Bindings

variable {τ : Type}

/-- A subscriber and the state of its transport. -/
structure Subscribing (τ : Type) where
  subscriber : Subscriber := {}
  net : τ

inductive SubscriberMove
  | onEvent (id : SubscriptionID) (handler : ℕ)
  | removeHandler (id : SubscriptionID)
  | turn (now : Timestamp)

inductive SubscriberEvent
  | changed (change : Change SubscriptionID ℕ)
  | took (taken : Taken)
  | ended
  deriving DecidableEq

namespace SubscriberEvent

/-- What the event does to the handlers. -/
def changes : SubscriberEvent → List (Change SubscriptionID ℕ)
  | .changed change => [change]
  | _ => []

/-- A notification goes to the handler that its subscription was last given. -/
def Current (before : List SubscriberEvent) : SubscriberEvent → Prop
  | .took taken => taken.handler =
      taken.notification.bind fun notif => latest notif.subscriptionId (before.flatMap changes)
  | _ => True

end SubscriberEvent

namespace Subscriber

variable (T : Transport τ)

def handlerCount (s : Subscriber) : ℕ := s.handlers.length

/-- A call, or one turn of the loop of `poll`. -/
def step (move : SubscriberMove) (s : Subscribing τ) : Checked (SubscriberEvent × Subscribing τ) :=
  match move with
  | .onEvent id handler =>
    return (.changed ⟨id, some handler⟩, { s with subscriber := s.subscriber.onEvent id handler })
  | .removeHandler id =>
      return (.changed ⟨id, none⟩, { s with subscriber := s.subscriber.removeHandler id })
  | .turn now => do
    let (recv, net) ← T.receive 0 s.net
    match recv with
    | .failure _ => return (.ended, { s with net })
    | .value frame =>
      let taken ← s.subscriber.take now frame
      return (.took taken, { s with net })

variable {T} {s s' : Subscribing τ} {move : SubscriberMove} {e : SubscriberEvent}

theorem take_current {subscriber : Subscriber} {now : Timestamp}
    {frame : List UInt8} {taken : Taken} (h : subscriber.take now frame = .ok taken) :
    taken.handler = taken.notification.bind fun notif =>
      subscriber.handlerOf notif.subscriptionId := by
  obtain ⟨decoded, -, h⟩ := bind_eq_ok.mp h
  cases decoded with
  | failure ec =>
    cases h
    rfl
  | value pdu =>
    cases hparse : EventNotification.parse pdu with
    | none =>
      simp only [hparse] at h
      cases h
      rfl
    | some event =>
      simp only [hparse] at h
      cases h
      rfl

theorem step_binds {history : List SubscriberEvent}
    (hbinds : Binds s.subscriber.handlers (history.flatMap SubscriberEvent.changes))
    (h : step T move s = .ok (e, s')) :
    Binds s'.subscriber.handlers ((history ++ [e]).flatMap SubscriberEvent.changes) ∧
    e.Current history := by
  rw [List.flatMap_append, List.flatMap_singleton]
  cases move with
  | onEvent id handler =>
    cases h
    exact ⟨hbinds.change ⟨id, some handler⟩, trivial⟩
  | removeHandler id =>
    cases h
    exact ⟨hbinds.change ⟨id, none⟩, trivial⟩
  | turn now =>
    obtain ⟨⟨recv, net⟩, -, h⟩ := bind_eq_ok.mp h
    cases recv with
    | failure ec =>
      cases h
      exact ⟨by simpa [SubscriberEvent.changes] using hbinds, trivial⟩
    | value frame =>
      obtain ⟨taken, htake, h⟩ := bind_eq_ok.mp h
      cases h
      refine ⟨by simpa [SubscriberEvent.changes] using hbinds, (take_current htake).trans ?_⟩
      congr 1
      funext notif
      exact hbinds.find notif.subscriptionId

/-- A poll that nothing comes between is the turns of its loop. -/
theorem pollLoop_turns {subscriber : Subscriber} {readings : List Timestamp}
    {net net' : τ} {log : SubscriberLog}
    (h : subscriber.pollLoop T readings net = .ok (log, net')) :
    ∃ turns, turns <+: readings.map SubscriberMove.turn ∧ runAll (step T) turns ⟨subscriber, net⟩ =
      .ok (log.taken.map SubscriberEvent.took ++ if log.finished then [.ended] else [],
        ⟨subscriber, net'⟩) := by
  induction readings generalizing net log with
  | nil =>
    cases h
    exact ⟨[], List.nil_prefix, rfl⟩
  | cons now readings ih =>
    rcases pollLoop_cons.mp h with ⟨ec, hrecv, rfl⟩ |
      ⟨frame, net₁, taken, rest, hrecv, htake, hrest, rfl⟩
    · refine ⟨[.turn now], ⟨readings.map .turn, rfl⟩, runAll_cons.mpr ⟨.ended, _, [], ?_, rfl, rfl⟩⟩
      simp only [step, hrecv, ok_bind]
      rfl
    · obtain ⟨turns, hprefix, hturns⟩ := ih hrest
      refine ⟨.turn now :: turns, List.cons_prefix_cons.mpr ⟨rfl, hprefix⟩,
        runAll_cons.mpr ⟨.took taken, _, _, ?_, hturns, rfl⟩⟩
      simp only [step, hrecv, htake, ok_bind]
      rfl

/-- However the calls fall between the turns of the polls, every notification goes to the
handler that was last registered for its subscription and not removed since, or to none;
and `handler_count` counts the subscriptions that have one. -/
theorem handlers_latest {moves : List SubscriberMove} {events : List SubscriberEvent}
    {net : τ} {last : Subscribing τ} (hrun : runAll (step T) moves ⟨{}, net⟩ = .ok (events, last)) :
    Throughout (fun before e => e.Current before) events ∧
      (∀ id, last.subscriber.handlerOf id = latest id (events.flatMap SubscriberEvent.changes)) ∧
      last.subscriber.handlerCount =
        ((events.flatMap SubscriberEvent.changes).map Change.key).dedup.countP
        fun id => (latest id (events.flatMap SubscriberEvent.changes)).isSome := by
  have hone : ∀ move ∈ moves, ∀ (s : Subscribing τ) e s' (history : List SubscriberEvent),
      (Binds s.subscriber.handlers (history.flatMap SubscriberEvent.changes) ∧
        Throughout (fun before e => e.Current before) history) → step T move s = .ok (e, s') →
      Binds s'.subscriber.handlers ((history ++ [e]).flatMap SubscriberEvent.changes) ∧
        Throughout (fun before e => e.Current before) (history ++ [e]) := by
    rintro move - s e s' history ⟨hbinds, hcurrent⟩ h
    obtain ⟨hbinds', hone⟩ := step_binds hbinds h
    exact ⟨hbinds', throughout_snoc.mpr ⟨hcurrent, hone⟩⟩
  obtain ⟨hbinds, hcurrent⟩ :=
    runAll_appends _ (fun e => [e]) moves hone ⟨binds_nil, throughout_nil⟩ hrun
  rw [List.flatMap_singleton', List.nil_append] at hbinds hcurrent
  exact ⟨hcurrent, hbinds.find, hbinds.length⟩

/-- Two notifications of subscription 1, whose handler is replaced between them. -/
theorem handlers_latest_replaced : ∃ taken taken' last,
    runAll (step Transport.replies)
      [.onEvent 1 7, .turn ⟨0⟩, .onEvent 1 8, .onEvent 2 9, .turn ⟨0⟩, .removeHandler 1]
        ⟨{}, [EventNotification.frame ⟨1, 0, ⟨0⟩, [100], []⟩,
          EventNotification.frame ⟨1, 0, ⟨0⟩, [101], []⟩]⟩ =
      .ok ([.changed ⟨1, some 7⟩, .took taken, .changed ⟨1, some 8⟩, .changed ⟨2, some 9⟩,
        .took taken',
        .changed ⟨1, none⟩], last) ∧
    taken.handler = some 7 ∧ taken'.handler = some 8 ∧ last.subscriber.handlerCount = 1 := by
  obtain ⟨taken, taken', last, hrun, hfirst, hsecond⟩ :
    ∃ (taken taken' : Taken) (last : Subscribing (List (List UInt8))),
      runAll (step Transport.replies)
        [.onEvent 1 7, .turn ⟨0⟩, .onEvent 1 8, .onEvent 2 9, .turn ⟨0⟩, .removeHandler 1]
          ⟨{}, [EventNotification.frame ⟨1, 0, ⟨0⟩, [100], []⟩,
            EventNotification.frame ⟨1, 0, ⟨0⟩, [101], []⟩]⟩ =
        .ok ([.changed ⟨1, some 7⟩, .took taken, .changed ⟨1, some 8⟩, .changed ⟨2, some 9⟩,
          .took taken',
          .changed ⟨1, none⟩], last) ∧
      taken.notification.map (·.subscriptionId) = some 1 ∧
      taken'.notification.map (·.subscriptionId) = some 1 :=
    ⟨_, _, _, rfl, rfl, rfl⟩
  obtain ⟨hcurrent, -, hcount⟩ := handlers_latest hrun
  obtain ⟨notif, hnotif, hid⟩ := Option.map_eq_some_iff.mp hfirst
  obtain ⟨notif', hnotif', hid'⟩ := Option.map_eq_some_iff.mp hsecond
  refine ⟨taken, taken', last, hrun, ?_, ?_, by rw [hcount]; rfl⟩
  · have htaken : taken.handler = taken.notification.bind fun notif =>
        latest notif.subscriptionId [⟨1, some 7⟩] :=
      hcurrent [.changed ⟨1, some 7⟩] _ _ rfl
    rw [htaken, hnotif, Option.bind_some, hid]
    rfl
  · have htaken : taken'.handler = taken'.notification.bind fun notif =>
        latest notif.subscriptionId [⟨1, some 7⟩, ⟨1, some 8⟩, ⟨2, some 9⟩] :=
      hcurrent [.changed ⟨1, some 7⟩, .took taken, .changed ⟨1, some 8⟩, .changed ⟨2, some 9⟩]
        _ _ rfl
    rw [htaken, hnotif', Option.bind_some, hid']
    rfl

end Subscriber

end ModbusPp

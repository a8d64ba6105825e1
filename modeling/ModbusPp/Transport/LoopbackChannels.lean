import Mathlib.Data.Rat.Defs
import ModbusPp.Foundation.Threads
import ModbusPp.Transport.Loopback

/-! The loopback pair under any number of threads. `send` looks at the connection, at the
injected errors and at the queue one after the other, `receive` at the connection and at
the queue, each under a lock of its own; between two of these steps other threads may
connect, disconnect, inject errors, send and receive. The pair is two first-in first-out
channels all the same. -/

namespace ModbusPp

open Foundation

inductive Side
  | client
  | server
  deriving DecidableEq

def Side.other : Side → Side
  | client => server
  | server => client

@[simp] theorem Side.other_other (e : Side) : e.other.other = e := by cases e <;> rfl

/-- A `std::error_code` that is an error. -/
abbrev InjectedError := { ec : StdErrorCode // ec.isError = true }

/-- A `LoopbackTransport` without its queues. -/
structure LoopbackSettings where
  connected : Bool := false
  errorRate : ℚ := 0
  nextError : Option InjectedError := none
  deriving DecidableEq

/-- What becomes of a send at the injected errors. -/
inductive Consultation
  | injected (ec : InjectedError)
  | dropped
  | passed
  deriving DecidableEq

/-- What happens at an endpoint. -/
inductive LoopbackEvent
  | linked (e : Side) (up : Bool)
  | armed (e : Side) (ec : InjectedError)
  | began (e : Side) (frame : List UInt8)
  | refused (e : Side) (frame : List UInt8)
  | consulted (e : Side) (frame : List UInt8) (outcome : Consultation)
  | pushed (e : Side) (frame : List UInt8)
  | took (e : Side) (msg : List UInt8)
  | missed (e : Side) (ec : ErrorCode)
  deriving DecidableEq

namespace LoopbackEvent

/-- The send that returns with the event, and its result. -/
def sendResult : LoopbackEvent → Option (Side × List UInt8 × VoidResult)
  | refused e frame => some (e, frame, .fail .transportDisconnected)
  | consulted e frame (.injected ec) => some (e, frame, ⟨ec.val⟩)
  | consulted e frame .dropped => some (e, frame, .fail .transportDisconnected)
  | pushed e frame => some (e, frame, .ok)
  | _ => none

/-- The receive that returns with the event, and its result. -/
def receiveResult : LoopbackEvent → Option (Side × Result (List UInt8))
  | took e msg => some (e, .value msg)
  | missed e ec => some (e, .fail ec)
  | _ => none

/-- The messages whose send on the endpoint returned success. -/
def sent (e : Side) (events : List LoopbackEvent) : List (List UInt8) :=
  events.filterMap fun ev => match ev.sendResult with
    | some (e', frame, result) => if e' = e ∧ result.hasValue then some frame else none
    | none => none

/-- The messages that `receive` returned on the endpoint. -/
def taken (e : Side) (events : List LoopbackEvent) : List (List UInt8) :=
  events.filterMap fun ev => match ev.receiveResult with
    | some (e', .value msg) => if e' = e then some msg else none
    | _ => none

/-- The error that is armed on the endpoint after the event. -/
def arms (e : Side) (before : Option InjectedError) : LoopbackEvent → Option InjectedError
  | armed e' ec => if e' = e then some ec else before
  | consulted e' _ _ => if e' = e then none else before
  | _ => before

/-- The last error armed on the endpoint, unless a send has consumed it. -/
def pending (e : Side) (events : List LoopbackEvent) : Option InjectedError :=
  events.foldl (arms e) none

/-- The last event that set the connection of the endpoint. -/
def links (e : Side) (before : Bool) : LoopbackEvent → Bool
  | linked e' up => if e' = e then up else before
  | _ => before

def connected (e : Side) (events : List LoopbackEvent) : Bool := events.foldl (links e) false

/-- A send goes on exactly if its endpoint is connected. One that comes to the injected
errors fails with the pending one, if there is one, and passes or is dropped otherwise. -/
def Heeds (before : List LoopbackEvent) : LoopbackEvent → Prop
  | began e _ => connected e before = true
  | refused e _ => connected e before = false
  | consulted e _ outcome => ∀ ec, outcome = .injected ec ↔ pending e before = some ec
  | _ => True

end LoopbackEvent

/-- The pair: the settings of each endpoint, and the messages under way to it. -/
structure LoopbackPair where
  settings : Side → LoopbackSettings := fun _ => {}
  queue : Side → List (List UInt8) := fun _ => []
  events : List LoopbackEvent := []

namespace LoopbackPair

def log (ev : LoopbackEvent) (s : LoopbackPair) : LoopbackPair :=
  { s with events := s.events ++ [ev] }

@[simp] theorem log_settings (ev : LoopbackEvent) (s : LoopbackPair) :
    (s.log ev).settings = s.settings := rfl

@[simp] theorem log_queue (ev : LoopbackEvent) (s : LoopbackPair) :
    (s.log ev).queue = s.queue := rfl

def set (e : Side) (settings : LoopbackSettings) (s : LoopbackPair) : LoopbackPair :=
  { s with settings := Function.update s.settings e settings }

def setQueue (e : Side) (queue : List (List UInt8)) (s : LoopbackPair) : LoopbackPair :=
  { s with queue := Function.update s.queue e queue }

/-- An endpoint, as it is when no other thread uses the pair. -/
def endpoint (s : LoopbackPair) (e : Side) (draw : ℚ) : LoopbackEndpoint where
  connected := (s.settings e).connected
  nextError := (s.settings e).nextError.map Subtype.val
  drops := [decide (0 < (s.settings e).errorRate ∧ draw < (s.settings e).errorRate)]

end LoopbackPair

inductive LoopbackCall
  | send (e : Side) (frame : List UInt8)
  | receive (e : Side)
  | connect (e : Side)
  | disconnect (e : Side)
  | setNextError (e : Side) (ec : InjectedError)
  | setErrorRate (e : Side) (rate : ℚ)

/-- What its surroundings contribute to a step: the next call of an idle thread, the
random number, and whether the timeout of a receive has passed. -/
structure LoopbackInput where
  call : LoopbackCall
  draw : ℚ := 0
  late : Bool := true

/-- Where a thread is: between calls, in a send before the injected errors or before the
queue, or in a receive before the queue. -/
inductive LoopbackControl
  | idle
  | consulting (e : Side) (frame : List UInt8)
  | pushing (e : Side) (frame : List UInt8)
  | taking (e : Side)

namespace LoopbackControl

/-- A call, up to its first lock. -/
def enter (call : LoopbackCall) (s : LoopbackPair) : LoopbackControl × LoopbackPair :=
  match call with
  | .send e frame =>
    if (s.settings e).connected then (consulting e frame, s.log (.began e frame))
    else (idle, s.log (.refused e frame))
  | .receive e =>
      if (s.settings e).connected then (taking e, s)
      else (idle, s.log (.missed e .transportDisconnected))
  | .connect e => (idle, (s.set e { s.settings e with connected := true }).log (.linked e true))
  | .disconnect e =>
      (idle, (s.set e { s.settings e with connected := false }).log (.linked e false))
  | .setNextError e ec =>
      (idle, (s.set e { s.settings e with nextError := some ec }).log (.armed e ec))
  | .setErrorRate e rate => (idle, s.set e { s.settings e with errorRate := rate })

/-- The injected errors of a send. -/
def consult (draw : ℚ) (e : Side) (frame : List UInt8) (s : LoopbackPair) :
    LoopbackControl × LoopbackPair :=
  match (s.settings e).nextError with
  | some ec =>
    (idle, (s.set e { s.settings e with nextError := none }).log
      (.consulted e frame (.injected ec)))
  | none =>
    if 0 < (s.settings e).errorRate ∧ draw < (s.settings e).errorRate then
      (idle, s.log (.consulted e frame .dropped))
    else (pushing e frame, s.log (.consulted e frame .passed))

/-- One atomic step of a thread; no step can fault. -/
def step (m : LoopbackInput) (k : LoopbackControl) (s : LoopbackPair) :
    Checked (LoopbackControl × LoopbackPair) :=
  match k with
  | idle => return enter m.call s
  | consulting e frame => return consult m.draw e frame s
  | pushing e frame =>
      return (idle, (s.setQueue e.other (s.queue e.other ++ [frame])).log (.pushed e frame))
  | taking e =>
    match s.queue e with
    | msg :: rest => return (idle, (s.setQueue e rest).log (.took e msg))
    | [] =>
      if m.late then return (idle, s.log (.missed e .timeoutExpired)) else return (taking e, s)

end LoopbackControl

namespace LoopbackEvent

variable {events : List LoopbackEvent} {ev : LoopbackEvent} {e : Side}

theorem sent_log (events : List LoopbackEvent) (ev : LoopbackEvent) (e : Side) :
    sent e (events ++ [ev]) = sent e events ++ sent e [ev] := List.filterMap_append

theorem taken_log (events : List LoopbackEvent) (ev : LoopbackEvent) (e : Side) :
    taken e (events ++ [ev]) = taken e events ++ taken e [ev] := List.filterMap_append

theorem connected_log (events : List LoopbackEvent) (ev : LoopbackEvent) (e : Side) :
    connected e (events ++ [ev]) = links e (connected e events) ev := List.foldl_append

theorem pending_log (events : List LoopbackEvent) (ev : LoopbackEvent) (e : Side) :
    pending e (events ++ [ev]) = arms e (pending e events) ev := List.foldl_append

theorem sent_injected (e e' : Side) (frame : List UInt8) (ec : InjectedError) :
    sent e' [consulted e frame (.injected ec)] = [] := by
  have hfails : (⟨ec.val⟩ : VoidResult).hasValue = false := by
    simp [VoidResult.hasValue, ec.property]
  simp [sent, sendResult, hfails]

theorem sent_refused (e e' : Side) (frame : List UInt8) : sent e' [refused e frame] = [] := by
  simp [sent, sendResult, VoidResult.hasValue, VoidResult.fail, StdErrorCode.isError,
    ErrorCode.transportDisconnected]

theorem sent_dropped (e e' : Side) (frame : List UInt8) :
    sent e' [consulted e frame .dropped] = [] := by
  simp [sent, sendResult, VoidResult.hasValue, VoidResult.fail, StdErrorCode.isError,
    ErrorCode.transportDisconnected]

theorem sent_pushed (e e' : Side) (frame : List UInt8) :
    sent e' [pushed e frame] = if e = e' then [frame] else [] := by
  by_cases he : e = e'
  · simp [sent, sendResult, VoidResult.hasValue, VoidResult.ok, StdErrorCode.isError,
      StdErrorCode.none, he]
  · simp [sent, sendResult, he]

theorem taken_took (e e' : Side) (msg : List UInt8) :
    taken e' [took e msg] = if e = e' then [msg] else [] := by
  by_cases he : e = e'
  · simp [taken, receiveResult, he]
  · simp [taken, receiveResult, he]

theorem taken_missed (e e' : Side) (ec : ErrorCode) : taken e' [missed e ec] = [] := rfl

end LoopbackEvent

namespace LoopbackPair

open LoopbackEvent

/-- Each direction is first in, first out, and the endpoints hold the connections and the
pending errors. -/
structure Channels (s : LoopbackPair) : Prop where
  fifo : ∀ e, taken e s.events ++ s.queue e = sent e.other s.events
  up : ∀ e, (s.settings e).connected = connected e s.events
  armed : ∀ e, (s.settings e).nextError = pending e s.events
  heeds : Throughout Heeds s.events

variable {s t : LoopbackPair}

/-- What an event has to do with the queues, the connections and the armed errors. -/
theorem Channels.event (h : Channels s) {ev : LoopbackEvent} (hevents : t.events = s.events ++ [ev])
    (hqueue : ∀ e, taken e [ev] ++ t.queue e = s.queue e ++ sent e.other [ev])
    (hlinks : ∀ e, (t.settings e).connected = links e (s.settings e).connected ev)
    (harms : ∀ e, (t.settings e).nextError = arms e (s.settings e).nextError ev)
    (hheeds : Heeds s.events ev) : Channels t where
  fifo e := by
    calc taken e t.events ++ t.queue e = taken e s.events ++ (taken e [ev] ++ t.queue e) := by
          rw [hevents, taken_log, List.append_assoc]
      _ = taken e s.events ++ s.queue e ++ sent e.other [ev] := by rw [hqueue, List.append_assoc]
      _ = sent e.other t.events := by rw [h.fifo, hevents, sent_log]
  up e := by rw [hlinks, h.up, hevents, connected_log]
  armed e := by rw [harms, h.armed, hevents, pending_log]
  heeds := by
    rw [hevents]
    exact throughout_snoc.mpr ⟨h.heeds, hheeds⟩

theorem set_settings {β : Type} (f : LoopbackSettings → β) (s : LoopbackPair) (e : Side)
    (settings : LoopbackSettings) (e' : Side) :
    f ((s.set e settings).settings e') = if e' = e then f settings else f (s.settings e') := by
  change f (Function.update s.settings e settings e') = _
  split_ifs with he
  · rw [he, Function.update_self]
  · rw [Function.update_of_ne he]

theorem Channels.setting (h : Channels s) {ev : LoopbackEvent} {e : Side}
    {settings : LoopbackSettings} (hqueue : ∀ e', taken e' [ev] = [] ∧ sent e' [ev] = [])
    (hlinks : ∀ e', links e' (s.settings e').connected ev =
      if e' = e then settings.connected else (s.settings e').connected)
    (harms : ∀ e', arms e' (s.settings e').nextError ev =
      if e' = e then settings.nextError else (s.settings e').nextError)
    (hheeds : Heeds s.events ev) : Channels ((s.set e settings).log ev) := by
  refine h.event rfl (fun e' => ?_) (fun e' => ?_) (fun e' => ?_) hheeds
  · rw [(hqueue e').1, (hqueue e'.other).2, List.append_nil]
    rfl
  · exact (set_settings (fun settings => settings.connected) s e settings e').trans (hlinks e').symm
  · exact (set_settings (fun settings => settings.nextError) s e settings e').trans (harms e').symm

/-- The error rate is not in the channels. -/
theorem Channels.rate (h : Channels s) (e : Side) (rate : ℚ) :
    Channels (s.set e { s.settings e with errorRate := rate }) where
  fifo := h.fifo
  up e' := by
    rw [set_settings (fun settings => settings.connected), h.up, h.up]
    split_ifs with he
    · rw [he]; rfl
    · rfl
  armed e' := by
    rw [set_settings (fun settings => settings.nextError), h.armed, h.armed]
    split_ifs with he
    · rw [he]; rfl
    · rfl
  heeds := h.heeds

theorem channels_begin : Channels {} where
  fifo _ := rfl
  up _ := rfl
  armed _ := rfl
  heeds := throughout_nil

end LoopbackPair

namespace LoopbackControl

open LoopbackEvent LoopbackPair

variable {s s' : LoopbackPair} {k' : LoopbackControl}

theorem enter_channels (h : Channels s) (call : LoopbackCall) : Channels (enter call s).2 := by
  cases call with
  | send e frame =>
    simp only [enter]
    split_ifs with hup
    · exact h.event rfl (fun e' => by simp [taken, receiveResult, sent, sendResult]) (fun e' => rfl)
        (fun e' => rfl) (by rw [Heeds, ← h.up, hup])
    · exact h.event rfl (fun e' => by simp [taken, receiveResult, sent_refused])
        (fun e' => rfl) (fun e' => rfl)
        (by rw [Heeds, ← h.up, Bool.eq_false_iff.mpr hup])
  | receive e =>
    simp only [enter]
    split_ifs
    · exact h
    · exact h.event rfl (fun e' => by simp [taken_missed, sent, sendResult])
        (fun e' => rfl) (fun e' => rfl) trivial
  | connect e =>
    refine h.setting (fun _ => ⟨rfl, rfl⟩) (fun e' => by simp [links, eq_comm])
      (fun e' => ?_) trivial
    split_ifs with he
    · rw [he]; rfl
    · rfl
  | disconnect e =>
    refine h.setting (fun _ => ⟨rfl, rfl⟩) (fun e' => by simp [links, eq_comm])
      (fun e' => ?_) trivial
    split_ifs with he
    · rw [he]; rfl
    · rfl
  | setErrorRate e rate => exact h.rate e rate
  | setNextError e ec =>
    refine h.setting (fun _ => ⟨rfl, rfl⟩) (fun e' => ?_)
      (fun e' => by simp [arms, eq_comm]) trivial
    split_ifs with he
    · rw [he]; rfl
    · rfl

theorem consult_channels (h : Channels s) (draw : ℚ) (e : Side) (frame : List UInt8) :
    Channels (consult draw e frame s).2 := by
  unfold consult
  cases hnext : (s.settings e).nextError with
  | some ec =>
    refine h.setting (fun e' => ⟨rfl, sent_injected e e' frame ec⟩) (fun e' => ?_)
      (fun e' => by simp [arms, eq_comm]) ?_
    · split_ifs with he
      · rw [he]; rfl
      · rfl
    · intro ec'
      rw [← h.armed, hnext]
      simp
  | none =>
    have harms (outcome : Consultation) (e' : Side) :
        (s.settings e').nextError = arms e' (s.settings e').nextError
          (.consulted e frame outcome) := by
      by_cases he : e = e'
      · subst he
        simp [arms, hnext]
      · simp [arms, he]
    have hpending (ec : InjectedError) : pending e s.events ≠ some ec := by
      rw [← h.armed, hnext]; simp
    split_ifs
    · exact h.event rfl (fun e' => by simp [taken, receiveResult, sent_dropped])
        (fun e' => rfl) (harms .dropped)
        fun ec => by simp [hpending]
    · exact h.event rfl (fun e' => by simp [taken, receiveResult, sent, sendResult])
        (fun e' => rfl) (harms .passed)
        fun ec => by simp [hpending]

theorem step_channels (m : LoopbackInput) (k : LoopbackControl)
    (s : LoopbackPair) (k' : LoopbackControl) (s' : LoopbackPair) (h : Channels s)
    (hstep : step m k s = .ok (k', s')) : Channels s' := by
  cases k with
  | idle =>
    obtain rfl : (enter m.call s).2 = s' := congrArg Prod.snd (Except.ok.inj hstep)
    exact enter_channels h m.call
  | consulting e frame =>
    obtain rfl : (consult m.draw e frame s).2 = s' := congrArg Prod.snd (Except.ok.inj hstep)
    exact consult_channels h m.draw e frame
  | pushing e frame =>
    cases hstep
    refine h.event rfl (fun e' => ?_) (fun e' => rfl) (fun e' => rfl) trivial
    change Function.update s.queue e.other _ e' = s.queue e' ++ sent e'.other [pushed e frame]
    by_cases he : e' = e.other
    · subst he
      rw [Function.update_self, Side.other_other, sent_pushed, if_pos rfl]
    · rw [Function.update_of_ne he, sent_pushed, if_neg, List.append_nil]
      rintro rfl
      exact he (Side.other_other e').symm
  | taking e =>
    cases hqueue : s.queue e with
    | nil =>
      simp only [step, hqueue] at hstep
      split_ifs at hstep
      · cases hstep
        exact h.event rfl (fun e' => by simp [taken_missed, sent, sendResult])
          (fun e' => rfl) (fun e' => rfl)
          trivial
      · cases hstep
        exact h
    | cons msg rest =>
      simp only [step, hqueue] at hstep
      cases hstep
      refine h.event rfl (fun e' => ?_) (fun e' => rfl) (fun e' => rfl) trivial
      change taken e' [took e msg] ++ Function.update s.queue e rest e' = _
      by_cases he : e' = e
      · subst he
        simp [taken_took, sent, sendResult, hqueue]
      · simp [taken_took, sent, sendResult, Function.update_of_ne he, Ne.symm he]

/-- In every interleaving a direction has delivered the first of the messages whose send
succeeded, in order, and every send heeds the connection and the armed error. -/
theorem runs_channels {ι : Type} [DecidableEq ι] (turns : List (ι × LoopbackInput)) {os : List Unit}
    {s' : Threads ι LoopbackControl LoopbackPair}
    (hrun : runAll (Threads.act step) turns ⟨fun _ => .idle, {}⟩ = .ok (os, s')) (e : Side) :
    taken e s'.shared.events <+: sent e.other s'.shared.events ∧
    Throughout Heeds s'.shared.events := by
  have h := Threads.runAll_shared Channels step_channels turns channels_begin hrun
  exact ⟨⟨_, h.fifo e⟩, h.heeds⟩

/-- The armed error meets the first message; the second is under way in one direction
while a third crosses in the other. -/
def crossing : List (Bool × LoopbackInput) :=
  [(true, { call := .connect .client }), (false, { call := .connect .server }),
    (true, { call := .setNextError .client ⟨makeErrorCode .crcMismatch, rfl⟩ }),
    (true, { call := .send .client [1] }), (false, { call := .send .server [3] }),
    (true, { call := .send .client [1] }), (true, { call := .send .client [2] }),
    (true, { call := .send .client [2] }), (false, { call := .send .server [3] }),
    (true, { call := .send .client [2] }), (false, { call := .send .server [3] }),
    (true, { call := .receive .client }), (true, { call := .receive .client })]

theorem runs_channels_crossing : ∃ s',
    runAll (Threads.act step) crossing ⟨fun _ => .idle, {}⟩ = .ok (List.replicate 13 (), s') ∧
    taken .client s'.shared.events = [[3]] ∧ sent .client s'.shared.events = [[2]] ∧
    taken .client s'.shared.events <+: sent .server s'.shared.events ∧
    Throughout Heeds s'.shared.events :=
  ⟨_, rfl, by decide, by decide, runs_channels crossing rfl .client⟩

section alone

open Threads

/-- The steps of an uninterrupted `send` make up `LoopbackEndpoint.send`. -/
theorem send_alone (s : LoopbackPair) (e : Side) (frame : List UInt8) (draw : ℚ) {r : VoidResult}
    {ep : LoopbackEndpoint} {queue : List (List UInt8)}
    (h : (s.endpoint e draw).send frame (s.queue e.other) = (r, ep, queue)) :
    ∃ ms s' events ev, alone step ms (.idle, s) = .ok (.idle, s') ∧ s'.events = events ++ [ev] ∧
      ev.sendResult = some (e, frame, r) ∧ s'.queue e.other = queue ∧
      (s'.settings e).nextError.map Subtype.val = ep.nextError := by
  cases hconnected : (s.settings e).connected with
  | false =>
    have hsend : (s.endpoint e draw).send frame (s.queue e.other) =
        (.fail .transportDisconnected, s.endpoint e draw, s.queue e.other) := by
      simp [LoopbackEndpoint.send, endpoint, hconnected]
    rw [hsend] at h
    cases h
    have hrefused :
        step { call := .send e frame } .idle s = .ok (.idle, s.log (.refused e frame)) := by
      simp [step, enter, hconnected, pure, Except.pure]
    exact ⟨[{ call := .send e frame }], s.log (.refused e frame), s.events, .refused e frame,
      alone_cons hrefused rfl, rfl, rfl, rfl, rfl⟩
  | true =>
    let m : LoopbackInput := { call := .send e frame, draw }
    let s₁ := s.log (.began e frame)
    have hstart : step m .idle s = .ok (.consulting e frame, s₁) := by
      simp [m, s₁, step, enter, hconnected, pure, Except.pure]
    cases hnext : (s.settings e).nextError with
    | some ec =>
      have hsend : (s.endpoint e draw).send frame (s.queue e.other) =
          (⟨ec.val⟩, { s.endpoint e draw with nextError := none }, s.queue e.other) := by
        simp [LoopbackEndpoint.send, endpoint, hconnected, hnext]
      rw [hsend] at h
      cases h
      have hinjected : step m (.consulting e frame) s₁ =
          .ok (.idle,
            (s₁.set e { s.settings e with nextError := none }).log
              (.consulted e frame (.injected ec))) := by
        simp [s₁, step, consult, hnext, pure, Except.pure]
      refine ⟨[m, m], _, s₁.events, .consulted e frame (.injected ec),
        alone_cons hstart (alone_cons hinjected rfl), rfl, rfl, rfl, ?_⟩
      simp [log, LoopbackPair.set]
    | none =>
      by_cases hdrop : 0 < (s.settings e).errorRate ∧ draw < (s.settings e).errorRate
      · have hsend : (s.endpoint e draw).send frame (s.queue e.other) =
            (.fail .transportDisconnected, { s.endpoint e draw with drops := [] },
              s.queue e.other) := by
          simp [LoopbackEndpoint.send, endpoint, hconnected, hnext, hdrop]
        rw [hsend] at h
        cases h
        have hdropped : step m (.consulting e frame) s₁ =
            .ok (.idle, s₁.log (.consulted e frame .dropped)) := by
          simp [m, s₁, step, consult, hnext, hdrop, pure, Except.pure]
        exact ⟨[m, m], _, s₁.events, .consulted e frame .dropped,
          alone_cons hstart (alone_cons hdropped rfl), rfl, rfl, rfl, rfl⟩
      · have hsend : (s.endpoint e draw).send frame (s.queue e.other) =
            (.ok, { s.endpoint e draw with drops := [] }, s.queue e.other ++ [frame]) := by
          simp [LoopbackEndpoint.send, endpoint, hconnected, hnext, hdrop]
        rw [hsend] at h
        cases h
        have hpassed : step m (.consulting e frame) s₁ =
            .ok (.pushing e frame, s₁.log (.consulted e frame .passed)) := by
          simp [m, s₁, step, consult, hnext, hdrop, pure, Except.pure]
        refine ⟨[m, m, m], _, s₁.events ++ [.consulted e frame .passed], .pushed e frame,
          alone_cons hstart (alone_cons hpassed (alone_cons rfl rfl)), rfl, rfl, ?_, rfl⟩
        simp [s₁, log, setQueue]

/-- The steps of an uninterrupted `receive` make up `LoopbackEndpoint.receive`. -/
theorem receive_alone (s : LoopbackPair) (e : Side) (draw : ℚ)
    {r : Result (List UInt8)} {queue : List (List UInt8)}
    (h : (s.endpoint e draw).receive (s.queue e) = (r, queue)) :
    ∃ ms s' ev, alone step ms (.idle, s) = .ok (.idle, s') ∧ s'.events = s.events ++ [ev] ∧
      ev.receiveResult = some (e, r) ∧ s'.queue e = queue ∧ s'.settings = s.settings := by
  let m : LoopbackInput := { call := .receive e }
  cases hconnected : (s.settings e).connected with
  | false =>
    have hreceive :
        (s.endpoint e draw).receive (s.queue e) = (.fail .transportDisconnected, s.queue e) := by
      simp [LoopbackEndpoint.receive, endpoint, hconnected]
    rw [hreceive] at h
    cases h
    have hmissed : step m .idle s = .ok (.idle, s.log (.missed e .transportDisconnected)) := by
      simp [m, step, enter, hconnected, pure, Except.pure]
    exact ⟨[m], _, .missed e .transportDisconnected, alone_cons hmissed rfl, rfl, rfl, rfl, rfl⟩
  | true =>
    have hstart : step m .idle s = .ok (.taking e, s) := by
      simp [m, step, enter, hconnected, pure, Except.pure]
    cases hqueue : s.queue e with
    | nil =>
      have hreceive : (s.endpoint e draw).receive (s.queue e) = (.fail .timeoutExpired, []) := by
        simp [LoopbackEndpoint.receive, endpoint, hconnected, hqueue]
      rw [hreceive] at h
      cases h
      have hmissed : step m (.taking e) s = .ok (.idle, s.log (.missed e .timeoutExpired)) := by
        simp [m, step, hqueue, pure, Except.pure]
      exact ⟨[m, m], _, .missed e .timeoutExpired, alone_cons hstart (alone_cons hmissed rfl),
        rfl, rfl, hqueue, rfl⟩
    | cons msg rest =>
      have hreceive : (s.endpoint e draw).receive (s.queue e) = (.value msg, rest) := by
        simp [LoopbackEndpoint.receive, endpoint, hconnected, hqueue]
      rw [hreceive] at h
      cases h
      have htook : step m (.taking e) s = .ok (.idle, (s.setQueue e queue).log (.took e msg)) := by
        simp [step, hqueue, pure, Except.pure]
      refine ⟨[m, m], _, .took e msg, alone_cons hstart (alone_cons htook rfl), rfl, rfl, ?_, rfl⟩
      simp [log, setQueue]

end alone

end LoopbackControl

end ModbusPp

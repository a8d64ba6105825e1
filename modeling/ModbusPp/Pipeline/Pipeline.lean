import ModbusPp.Pipeline.RequestQueue
import ModbusPp.Transport.Transport

/-! The pipeline (`pipeline.cpp`) over any transport. The clock readings of a
call are its arguments. `poll` returns nothing in the source; here it returns its
local variables and the callbacks it invoked, in order. -/

namespace ModbusPp

open Foundation

structure PipelineConfig where
  maxInFlight : UInt16 := 16
  defaultTimeout : Milliseconds := 1000

structure Pipeline where
  config : PipelineConfig := {}
  queue : RequestQueue
  nextId : CorrelationID := 1
  totalCompleted : UInt64 := 0
  totalLatencyUs : UInt64 := 0

/-- A pipeline and the state of its transport. -/
structure Pipelining (τ : Type) where
  pipeline : Pipeline
  net : τ

/-- A callback that was called, and with what. -/
structure Invocation where
  callback : Callback
  result : Result PDU
  deriving DecidableEq

/-- `if (callback) callback(result);`. -/
def Callback.invoke (callback : Callback) (result : Result PDU) : List Invocation :=
  if callback.isSet then [⟨callback, result⟩] else []

/-- One `poll`: the frame received, the request that was matched with the PDU in
it, the requests that were expired, and the callbacks invoked. -/
structure PollLog where
  frame : Option (List UInt8) := none
  answered : Option (PendingRequest × PDU) := none
  expired : List PendingRequest := []
  invoked : List Invocation := []

namespace Pipeline

variable {τ : Type} (T : Transport τ)

def create (config : PipelineConfig) : Pipeline where
  config := config
  queue := { maxSize := config.maxInFlight.toNat }

/-- The request as it is sent, under its correlation id. -/
def toSend (corrId : CorrelationID) (request : PDU) : PDU :=
  match request.extHeader with
  | some hdr => .makeExtended { hdr with correlationId := corrId } request.payload request.hmac
  | none => .makeExtended { correlationId := corrId, extFunctionCode := .pipelineBegin }
      request.serialize

/-- `id_gen_.next()` has been called. -/
def advance (p : Pipeline) : Pipeline := { p with nextId := p.nextId + 1 }

/-- The entry of the next request; `now` is the clock reading. -/
def nextPending (p : Pipeline) (request : PDU) (callback : Callback)
    (timeout : Milliseconds) (now : Timestamp) :
    PendingRequest where
  id := p.nextId
  request := toSend p.nextId request
  sentAt := now
  timeout := if timeout = 0 then p.config.defaultTimeout else timeout
  callback := callback

def submit (request : PDU) (callback : Callback) (timeout : Milliseconds)
    (now : Timestamp) (s : Pipelining τ) :
    Checked (Result CorrelationID × Pipelining τ) := do
  let pending := s.pipeline.nextPending request callback timeout now
  let (sendResult, net) ← T.send pending.request.serialize s.net
  if !sendResult.hasValue then return (.failure sendResult.error, ⟨s.pipeline.advance, net⟩)
  let (inserted, queue) := s.pipeline.queue.insert pending
  if !inserted then return (.fail .pipelineOverflow, ⟨{ s.pipeline.advance with queue }, net⟩)
  return (.value pending.id, ⟨{ s.pipeline.advance with queue }, net⟩)

/-- The id in the extended header, or 0. -/
def correlationOf (pdu : PDU) : CorrelationID :=
  match pdu.extHeader with
  | some hdr => hdr.correlationId
  | none => 0

/-- `poll` from the matched request on: the statistics, its callback, and the
sweep of the expired requests. -/
def complete (frame : List UInt8) (pdu : PDU) (pending : PendingRequest) (queue : RequestQueue)
    (matchedAt sweptAt : Timestamp) (p : Pipeline) : Checked (PollLog × Pipeline) := do
  let latencyUs ← signed (matchedAt.usSinceEpoch.toInt - pending.sentAt.usSinceEpoch.toInt)
  let (expired, queue) ← queue.removeExpired sweptAt
  let invoked := pending.callback.invoke (.value pdu) ++
    expired.flatMap fun req => req.callback.invoke (.fail .timeoutExpired)
  return ({ frame, answered := some (pending, pdu), expired, invoked }, { p with
    queue
    totalCompleted := p.totalCompleted + 1
    totalLatencyUs := p.totalLatencyUs + latencyUs.toUInt64 })

/-- `poll`; the clock is read when a request is matched and in the sweep. -/
def poll (matchedAt sweptAt : Timestamp) (s : Pipelining τ) : Checked (PollLog × Pipelining τ) := do
  let (recvResult, net) ← T.receive 0 s.net
  match recvResult with
  | .failure _ => return ({}, ⟨s.pipeline, net⟩)
  | .value frame =>
    match ← PDU.deserialize (.ofList frame) with
    | .failure _ => return ({ frame }, ⟨s.pipeline, net⟩)
    | .value pdu =>
      match s.pipeline.queue.remove (correlationOf pdu) with
      | (none, _) => return ({ frame }, ⟨s.pipeline, net⟩)
      | (some pending, queue) =>
        let (log, pipeline) ← complete frame pdu pending queue matchedAt sweptAt s.pipeline
        return (log, ⟨pipeline, net⟩)

def cancel (id : CorrelationID) (p : Pipeline) : Bool × Pipeline :=
  let (found, queue) := p.queue.cancel id
  (found, { p with queue })

/-- What a submission can do. The frame goes out first; the entry is then made, or
refused by a full queue, or swallowed by an entry under the same id. -/
theorem submit_cases {request : PDU} {callback : Callback} {timeout : Milliseconds}
    {now : Timestamp} {s s' : Pipelining τ} {result : Result CorrelationID}
    (h : submit T request callback timeout now s = .ok (result, s')) :
    ∃ sent queue,
      T.send (s.pipeline.nextPending request callback timeout now).request.serialize s.net =
        .ok (sent, s'.net) ∧ s'.pipeline = { s.pipeline.advance with queue } ∧
      ((sent.hasValue = false ∧ result = .failure sent.error ∧ queue = s.pipeline.queue) ∨
      (sent.hasValue = true ∧ s.pipeline.queue.Full ∧ result = .fail .pipelineOverflow ∧
        queue = s.pipeline.queue) ∨
      (sent.hasValue = true ∧ ¬s.pipeline.queue.Full ∧ s.pipeline.nextId ∈ s.pipeline.queue.ids ∧
        result = .value s.pipeline.nextId ∧ queue = s.pipeline.queue) ∨
      (sent.hasValue = true ∧ ¬s.pipeline.queue.Full ∧ s.pipeline.nextId ∉ s.pipeline.queue.ids ∧
        result = .value s.pipeline.nextId ∧ queue.maxSize = s.pipeline.queue.maxSize ∧
        queue.pending = s.pipeline.queue.pending ++
          [s.pipeline.nextPending request callback timeout now])) := by
  obtain ⟨⟨sent, net⟩, hsend, h⟩ := bind_eq_ok.mp h
  cases hsent : sent.hasValue with
  | false =>
    simp only [hsent, Bool.not_false, if_true] at h
    cases h
    exact ⟨sent, s.pipeline.queue, hsend, rfl, .inl ⟨hsent, rfl, rfl⟩⟩
  | true =>
    simp only [hsent, Bool.not_true, Bool.false_eq_true, if_false] at h
    rcases RequestQueue.insert_cases (s.pipeline.nextPending request callback timeout now)
      s.pipeline.queue with
      ⟨hfull, hinsert⟩ | ⟨hfull, htaken, hinsert⟩ | ⟨hfull, hfree, htrue, hsize, hpending⟩
    · rw [hinsert] at h
      cases h
      exact ⟨sent, s.pipeline.queue, hsend, rfl, .inr (.inl ⟨hsent, hfull, rfl, rfl⟩)⟩
    · rw [hinsert] at h
      cases h
      exact ⟨sent, s.pipeline.queue, hsend, rfl,
        .inr (.inr (.inl ⟨hsent, hfull, htaken, rfl, rfl⟩))⟩
    · rw [htrue] at h
      cases h
      exact ⟨sent, _, hsend, rfl, .inr (.inr (.inr ⟨hsent, hfull, hfree, rfl, hsize, hpending⟩))⟩

/-- The PDU that the next `receive` brings in. -/
def arriving (s : Pipelining τ) : Option PDU :=
  match T.receive 0 s.net with
  | .ok (.value frame, _) =>
    match PDU.deserialize (.ofList frame) with
    | .ok (.value pdu) => some pdu
    | _ => none
  | _ => none

/-- What `poll` does when the PDU it receives has a request. -/
structure Completes (sweptAt : Timestamp) (p p' : Pipeline) (pdu : PDU)
    (r : PendingRequest) (log : PollLog) : Prop where
  found : p.queue.find (correlationOf pdu) = some r
  answered : log.answered = some (r, pdu)
  expired : log.expired = (p.queue.erase r.id).pending.filter (·.Overdue sweptAt)
  kept : p'.queue.pending = (p.queue.erase r.id).pending.filter (¬·.Overdue sweptAt)
  invoked : log.invoked = r.callback.invoke (.value pdu) ++
    log.expired.flatMap fun req => req.callback.invoke (.fail .timeoutExpired)
  maxSize_eq : p'.queue.maxSize = p.queue.maxSize
  nextId_eq : p'.nextId = p.nextId
  counted : p'.totalCompleted = p.totalCompleted + 1

theorem complete_completes {frame : List UInt8} {pdu : PDU} {r : PendingRequest}
    {matchedAt sweptAt : Timestamp} {p p' : Pipeline} {log : PollLog}
    (hfound : p.queue.find (correlationOf pdu) = some r)
    (h : complete frame pdu r (p.queue.erase (correlationOf pdu)) matchedAt sweptAt p =
      .ok (log, p')) :
    log.frame = some frame ∧ Completes sweptAt p p' pdu r log := by
  obtain ⟨latencyUs, -, h⟩ := bind_eq_ok.mp h
  obtain ⟨⟨expired, queue⟩, hsweep, h⟩ := bind_eq_ok.mp h
  obtain ⟨hexpired, hkept, hsize⟩ := RequestQueue.removeExpired_eq hsweep
  cases h
  rw [← (RequestQueue.find_eq_some.mp hfound).2] at hexpired hkept
  exact ⟨rfl, hfound, rfl, hexpired, hkept, rfl, hsize, rfl, rfl⟩

/-- What a poll does with what it receives. -/
theorem poll_inv {matchedAt sweptAt : Timestamp} {s s' : Pipelining τ} {log : PollLog}
    (h : poll T matchedAt sweptAt s = .ok (log, s')) :
    (∃ ec, T.receive 0 s.net = .ok (.failure ec, s'.net) ∧ log = {} ∧ s'.pipeline = s.pipeline) ∨
    ∃ frame decoded, T.receive 0 s.net = .ok (.value frame, s'.net) ∧
      PDU.deserialize (.ofList frame) = .ok decoded ∧ log.frame = some frame ∧
      ((log = { frame } ∧ s'.pipeline = s.pipeline ∧
          ∀ pdu, decoded = .value pdu → correlationOf pdu ∉ s.pipeline.queue.ids) ∨
        ∃ pdu r, decoded = .value pdu ∧ Completes sweptAt s.pipeline s'.pipeline pdu r log) := by
  obtain ⟨⟨received, net⟩, hrecv, h⟩ := bind_eq_ok.mp h
  cases received with
  | failure ec =>
    cases h
    exact .inl ⟨ec, hrecv, rfl, rfl⟩
  | value frame =>
    obtain ⟨decoded, hdecode, h⟩ := bind_eq_ok.mp h
    cases decoded with
    | failure ec =>
      cases h
      exact .inr ⟨frame, _, hrecv, hdecode, rfl, .inl ⟨rfl, rfl, nofun⟩⟩
    | value pdu =>
      simp only [RequestQueue.remove] at h
      cases hfind : s.pipeline.queue.find (correlationOf pdu) with
      | none =>
        rw [hfind] at h
        cases h
        refine .inr ⟨frame, _, hrecv, hdecode, rfl, .inl ⟨rfl, rfl, ?_⟩⟩
        rintro _ ⟨⟩
        exact RequestQueue.find_eq_none.mp hfind
      | some r =>
        rw [hfind] at h
        obtain ⟨⟨log', p'⟩, hcomplete, h⟩ := bind_eq_ok.mp h
        cases h
        obtain ⟨hframe, hcompletes⟩ := complete_completes hfind hcomplete
        exact .inr ⟨frame, _, hrecv, hdecode, hframe, .inr ⟨pdu, r, rfl, hcompletes⟩⟩

/-- What a poll can do: nothing, unless the PDU it receives has a request. -/
theorem poll_cases {matchedAt sweptAt : Timestamp} {s s' : Pipelining τ} {log : PollLog}
    (h : poll T matchedAt sweptAt s = .ok (log, s')) :
    (s'.pipeline = s.pipeline ∧ log.answered = none ∧ log.expired = [] ∧ log.invoked = [] ∧
      ∀ pdu, arriving T s = some pdu → correlationOf pdu ∉ s.pipeline.queue.ids) ∨
    ∃ frame pdu r, log.frame = some frame ∧ PDU.deserialize (.ofList frame) = .ok (.value pdu) ∧
      arriving T s = some pdu ∧ Completes sweptAt s.pipeline s'.pipeline pdu r log := by
  rcases poll_inv T h with ⟨ec, hrecv, rfl, hsame⟩ | ⟨frame, decoded, hrecv, hdecode, hframe, hrest⟩
  · exact .inl ⟨hsame, rfl, rfl, rfl, by simp [arriving, hrecv]⟩
  · rcases hrest with ⟨rfl, hsame, hunmatched⟩ | ⟨pdu, r, rfl, hcompletes⟩
    · refine .inl ⟨hsame, rfl, rfl, rfl, fun pdu harriving => hunmatched pdu ?_⟩
      simp only [arriving, hrecv, hdecode] at harriving
      cases decoded with
      | value pdu' => rw [Option.some.inj harriving]
      | failure ec => contradiction
    · exact .inr ⟨frame, pdu, r, hframe, hdecode,
        by simp only [arriving, hrecv, hdecode], hcompletes⟩

theorem arriving_iff {s : Pipelining τ} {pdu : PDU} :
    arriving T s = some pdu ↔ ∃ frame ∈ T.incoming 1 s.net,
      PDU.deserialize (.ofList frame) = .ok (.value pdu) := by
  unfold arriving Transport.incoming
  rcases T.receive 0 s.net with fault | ⟨frame | ec, net⟩
  · simp
  · simp only [Transport.incoming, List.mem_singleton, exists_eq_left]
    rcases PDU.deserialize (.ofList frame) with fault | pdu' | ec <;> simp
  · simp

theorem poll_frame {matchedAt sweptAt : Timestamp} {s s' : Pipelining τ} {log : PollLog}
    (h : poll T matchedAt sweptAt s = .ok (log, s')) : T.incoming 1 s.net = log.frame.toList := by
  unfold Transport.incoming
  rcases poll_inv T h with ⟨ec, hrecv, rfl, -⟩ | ⟨frame, decoded, hrecv, -, hframe, -⟩
  · rw [hrecv]
    rfl
  · rw [hrecv, hframe]
    rfl

/-- The frame carries a PDU under the id of a request in flight. -/
def Awaits (p : Pipeline) (frame : List UInt8) : Prop :=
  ∃ pdu, PDU.deserialize (.ofList frame) = .ok (.value pdu) ∧ correlationOf pdu ∈ p.queue.ids

/-- The PDU in the frame went to the callback of the request under its id. -/
def Dispatched (p : Pipeline) (frame : List UInt8) (log : PollLog) : Prop :=
  ∃ pdu r, PDU.deserialize (.ofList frame) = .ok (.value pdu) ∧
    p.queue.find (correlationOf pdu) = some r ∧
    log.answered = some (r, pdu) ∧ r.callback.invoke (.value pdu) <+: log.invoked

/-- Of the frame it receives, `poll` makes nothing unless it is awaited. -/
theorem poll_dispatched {matchedAt sweptAt : Timestamp} {s s' : Pipelining τ} {log : PollLog}
    (h : poll T matchedAt sweptAt s = .ok (log, s')) {frame : List UInt8}
    (hframe : log.frame = some frame) :
    s.pipeline.Dispatched frame log ↔ s.pipeline.Awaits frame := by
  have hincoming : frame ∈ T.incoming 1 s.net := by
    rw [poll_frame T h, hframe]; exact List.mem_singleton_self frame
  constructor
  · rintro ⟨pdu, r, hdecode, hfound, -, -⟩
    exact ⟨pdu, hdecode, RequestQueue.mem_ids.mpr ⟨r, RequestQueue.find_eq_some.mp hfound⟩⟩
  · rintro ⟨pdu, hdecode, hmem⟩
    have harriving : arriving T s = some pdu := (arriving_iff T).mpr ⟨frame, hincoming, hdecode⟩
    rcases poll_cases T h with ⟨-, -, -, -, hunmatched⟩ | ⟨_, pdu', r, -, -, harriving', hcompletes⟩
    · exact absurd hmem (hunmatched pdu harriving)
    · rw [harriving, Option.some.injEq] at harriving'
      subst harriving'
      refine ⟨pdu, r, hdecode, hcompletes.found, hcompletes.answered, ?_⟩
      rw [hcompletes.invoked]
      exact List.prefix_append _ _

def inFlightCount (p : Pipeline) : ℕ := p.queue.size

def completedCount (p : Pipeline) : UInt64 := p.totalCompleted

end Pipeline

end ModbusPp

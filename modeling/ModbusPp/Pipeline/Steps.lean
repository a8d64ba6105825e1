import ModbusPp.Foundation.Threads
import ModbusPp.Pipeline.Pipeline

/-! The pipeline used by several threads. The source takes a lock for each operation on
the queue and none for a whole call, so a call is a row of atomic steps: `submit` sends
and then inserts; `poll` receives, removes, invokes, sweeps, and invokes for what was
swept; `submit_sync` polls, looks at its result, and gives up with a `cancel`. -/

namespace ModbusPp

open Foundation

/-- A `submit_sync` that is under way: its local variables are those of a submission, and
it waits for the response to an id. -/
structure SyncCall where
  submission : ℕ
  id : CorrelationID
  deriving DecidableEq

/-- What an idle thread can call. -/
inductive ThreadCall
  | submit (request : PDU) (hasCallback : Bool) (timeout : Milliseconds)
  | poll
  | submitSync (request : PDU) (timeout : Milliseconds)

/-- What its surroundings contribute to a step, of which it takes what it needs: the next
call, the clock reading, the transport's answers, and whether a deadline has passed. -/
structure Surroundings where
  call : ThreadCall := .poll
  now : Timestamp := ⟨0⟩
  sent : VoidResult := .ok
  received : Result (List UInt8) := .fail .timeoutExpired
  late : Bool := false

/-- Where a thread is, each named after the step it takes next. A poll goes on in the
`submit_sync` it was called from. -/
inductive Control
  | idle
  | sending (r : PendingRequest) (sync : Bool)
  | inserting (r : PendingRequest) (sync : Bool)
  | receiving (call : Option SyncCall)
  | removing (pdu : PDU) (call : Option SyncCall)
  | dispatching (r : PendingRequest) (pdu : PDU) (call : Option SyncCall)
  | sweeping (call : Option SyncCall)
  | expiring (rs : List PendingRequest) (call : Option SyncCall)
  | waiting (call : SyncCall)
  | cancelling (call : SyncCall)

/-- The pipeline, with what its calls have returned and which callbacks were invoked. A
callback is dangling if it refers to a `submit_sync` that had returned. -/
structure Sharing where
  pipeline : Pipeline
  submissions : ℕ := 0
  submitted : List (ℕ × Result CorrelationID) := []
  invoked : List Invocation := []
  returned : List (ℕ × Result PDU) := []
  dangling : List Invocation := []

namespace Sharing

/-- A submission has taken its number and its id. -/
def start (s : Sharing) : Sharing :=
  { s with pipeline := s.pipeline.advance, submissions := s.submissions + 1 }

def withQueue (queue : RequestQueue) (s : Sharing) : Sharing :=
  { s with pipeline := { s.pipeline with queue } }

/-- `submit` returns. -/
def submits (r : PendingRequest) (result : Result CorrelationID) (s : Sharing) : Sharing :=
  { s with submitted := s.submitted ++ [(r.callback.submission, result)] }

/-- `submit_sync` returns. -/
def returns (submission : ℕ) (result : Result PDU) (s : Sharing) : Sharing :=
  { s with returned := s.returned ++ [(submission, result)] }

/-- `submit` returns an error, and `submit_sync` with it. -/
def fails (r : PendingRequest) (sync : Bool) (ec : StdErrorCode) (s : Sharing) : Sharing :=
  let s := s.submits r (.failure ec)
  if sync then s.returns r.callback.submission (.failure ec) else s

/-- The numbers of the calls that have returned. -/
def finished (s : Sharing) : List ℕ := s.returned.map Prod.fst

def invoke (callback : Callback) (result : Result PDU) (s : Sharing) : Sharing :=
  { s with
    invoked := s.invoked ++ callback.invoke result
    dangling := s.dangling ++ (callback.invoke result).filter (·.callback.submission ∈ s.finished) }

/-- The local variable `result`, once `done` is set. -/
def resultOf (submission : ℕ) (s : Sharing) : Option (Result PDU) :=
  (s.invoked.reverse.find? (·.callback.submission = submission)).map Invocation.result

/-- The statistics of a response. -/
def complete (latencyUs : Int64) (s : Sharing) : Sharing :=
  { s with pipeline := { s.pipeline with
      totalCompleted := s.pipeline.totalCompleted + 1
      totalLatencyUs := s.pipeline.totalLatencyUs + latencyUs.toUInt64 } }

end Sharing

namespace Control

/-- Where a poll returns to. -/
def afterPoll : Option SyncCall → Control
  | none => .idle
  | some call => .waiting call

def stepIdle (m : Surroundings) (s : Sharing) : Control × Sharing :=
  match m.call with
  | .submit request hasCallback timeout =>
    (.sending (s.pipeline.nextPending request ⟨s.submissions, hasCallback⟩ timeout m.now) false,
      s.start)
  | .poll => (.receiving none, s)
  | .submitSync request timeout =>
    (.sending (s.pipeline.nextPending request ⟨s.submissions, true⟩ timeout m.now) true, s.start)

def stepInserting (r : PendingRequest) (sync : Bool) (s : Sharing) : Control × Sharing :=
  let (inserted, queue) := s.pipeline.queue.insert r
  let s := s.withQueue queue
  if !inserted then (.idle, s.fails r sync (makeErrorCode .pipelineOverflow))
  else (if sync then .receiving (some ⟨r.callback.submission, r.id⟩) else .idle,
    s.submits r (.value r.id))

theorem stepInserting_full {r : PendingRequest} {s : Sharing}
    (hfull : s.pipeline.queue.Full) (sync : Bool) :
    stepInserting r sync s = (.idle, s.fails r sync (makeErrorCode .pipelineOverflow)) := by
  rw [stepInserting, RequestQueue.insert, if_pos hfull]
  rfl

theorem stepInserting_room {r : PendingRequest} {s : Sharing}
    (hroom : ¬s.pipeline.queue.Full) (sync : Bool) :
    stepInserting r sync s =
      (if sync then .receiving (some ⟨r.callback.submission, r.id⟩) else .idle,
      (s.withQueue (s.pipeline.queue.emplace r)).submits r (.value r.id)) := by
  rw [stepInserting, RequestQueue.insert, if_neg hroom]
  rfl

def stepReceiving (received : Result (List UInt8)) (call : Option SyncCall) : Checked Control :=
  match received with
  | .failure _ => return afterPoll call
  | .value frame => do
    match ← PDU.deserialize (.ofList frame) with
    | .failure _ => return afterPoll call
    | .value pdu => return .removing pdu call

def stepRemoving (pdu : PDU) (call : Option SyncCall) (s : Sharing) : Control × Sharing :=
  match s.pipeline.queue.remove (Pipeline.correlationOf pdu) with
  | (none, _) => (afterPoll call, s)
  | (some r, queue) => (.dispatching r pdu call, s.withQueue queue)

/-- One atomic step of a thread. -/
def step (m : Surroundings) : Control → Sharing → Checked (Control × Sharing)
  | .idle, s => return stepIdle m s
  | .sending r sync, s =>
    if m.sent.hasValue then return (.inserting r sync, s)
    else return (.idle, s.fails r sync m.sent.error)
  | .inserting r sync, s => return stepInserting r sync s
  | .receiving call, s => do
    let next ← stepReceiving m.received call
    return (next, s)
  | .removing pdu call, s => return stepRemoving pdu call s
  | .dispatching r pdu call, s => do
    let latencyUs ← signed (m.now.usSinceEpoch.toInt - r.sentAt.usSinceEpoch.toInt)
    return (.sweeping call, (s.complete latencyUs).invoke r.callback (.value pdu))
  | .sweeping call, s => do
    let (expired, queue) ← s.pipeline.queue.removeExpired m.now
    return (.expiring expired call, s.withQueue queue)
  | .expiring [] call, s => return (afterPoll call, s)
  | .expiring (r :: rs) call,
      s => return (.expiring rs call, s.invoke r.callback (.fail .timeoutExpired))
  | .waiting call, s =>
    match s.resultOf call.submission with
    | some result => return (.idle, s.returns call.submission result)
    | none => return (if m.late then .cancelling call else .receiving (some call), s)
  | .cancelling call, s =>
    return (.idle, (s.withQueue (s.pipeline.queue.cancel call.id).2).returns
      call.submission (.fail .timeoutExpired))

section alone

open Threads

variable {τ : Type} {T : Transport τ} {s : Sharing} {net net' : τ} {p' : Pipeline}

/-- The steps of an uninterrupted `submit` make up `Pipeline.submit`. -/
theorem submit_alone {request : PDU} {hasCallback : Bool} {timeout : Milliseconds} {now : Timestamp}
    {result : Result CorrelationID}
    (h : Pipeline.submit T request ⟨s.submissions, hasCallback⟩ timeout now ⟨s.pipeline, net⟩ =
      .ok (result, ⟨p', net'⟩)) :
    ∃ ms s', alone step ms (.idle, s) = .ok (.idle, s') ∧ s'.pipeline = p' ∧
      s'.submitted = s.submitted ++ [(s.submissions, result)] := by
  obtain ⟨⟨sent, net₁⟩, -, h⟩ := bind_eq_ok.mp h
  let start : Surroundings := { call := .submit request hasCallback timeout, now }
  let r := s.pipeline.nextPending request ⟨s.submissions, hasCallback⟩ timeout now
  have hstart : step start .idle s = .ok (.sending r false, s.start) := rfl
  cases hsent : sent.hasValue with
  | false =>
    simp only [hsent, Bool.not_false, if_true] at h
    cases h
    have hsend : step { sent } (.sending r false) s.start =
        .ok (.idle, s.start.fails r false sent.error) := by
      simp only [step, hsent, Bool.false_eq_true, if_false, pure_eq_ok]
    exact ⟨[start, { sent }], _, alone_cons hstart (alone_cons hsend rfl), rfl, rfl⟩
  | true =>
    simp only [hsent, Bool.not_true, Bool.false_eq_true, if_false] at h
    have hsend : step { sent } (.sending r false) s.start = .ok (.inserting r false, s.start) := by
      simp only [step, hsent, if_true, pure_eq_ok]
    by_cases hfull : s.pipeline.queue.Full
    · rw [RequestQueue.insert, if_pos hfull] at h
      cases h
      have hinsert : step {} (.inserting r false) s.start =
          .ok (.idle, s.start.fails r false (makeErrorCode .pipelineOverflow)) := by
        rw [step, stepInserting_full (s := s.start) hfull, pure_eq_ok]
      exact ⟨[start, { sent }, {}], _,
        alone_cons hstart (alone_cons hsend (alone_cons hinsert rfl)), rfl, rfl⟩
    · rw [RequestQueue.insert, if_neg hfull] at h
      cases h
      have hinsert : step {} (.inserting r false) s.start =
          .ok (.idle, (s.start.withQueue (s.pipeline.queue.emplace r)).submits r
            (.value r.id)) := by
        rw [step, stepInserting_room (s := s.start) hfull, pure_eq_ok]
        rfl
      exact ⟨[start, { sent }, {}], _,
        alone_cons hstart (alone_cons hsend (alone_cons hinsert rfl)), rfl, rfl⟩

theorem expiring_alone (rs : List PendingRequest) (call : Option SyncCall) (s : Sharing) :
    ∃ ms s', alone step ms (.expiring rs call, s) = .ok (afterPoll call, s') ∧
      s'.pipeline = s.pipeline ∧
      s'.invoked = s.invoked ++ rs.flatMap fun r => r.callback.invoke (.fail .timeoutExpired) := by
  induction rs generalizing s with
  | nil => exact ⟨[{}], s, rfl, rfl, (List.append_nil _).symm⟩
  | cons r rs ih =>
    obtain ⟨ms, s', hrest, hpipeline, hinvoked⟩ := ih (s.invoke r.callback (.fail .timeoutExpired))
    refine ⟨{} :: ms, s', alone_cons rfl hrest, hpipeline, ?_⟩
    rw [hinvoked, List.flatMap_cons, ← List.append_assoc]
    rfl

/-- The steps of an uninterrupted `poll` make up `Pipeline.poll`. -/
theorem poll_alone (call : Option SyncCall) {matchedAt sweptAt : Timestamp} {log : PollLog}
    (h : Pipeline.poll T matchedAt sweptAt ⟨s.pipeline, net⟩ = .ok (log, ⟨p', net'⟩)) :
    ∃ ms s', alone step ms (.receiving call, s) = .ok (afterPoll call, s') ∧ s'.pipeline = p' ∧
      s'.invoked = s.invoked ++ log.invoked := by
  obtain ⟨⟨received, net₁⟩, -, h⟩ := bind_eq_ok.mp h
  cases received with
  | failure ec =>
    cases h
    exact ⟨[{ received := .failure ec }], s, rfl, rfl, (List.append_nil _).symm⟩
  | value frame =>
    obtain ⟨decoded, hdecode, h⟩ := bind_eq_ok.mp h
    cases decoded with
    | failure ec =>
      cases h
      have hreceive :
          step { received := .value frame } (.receiving call) s = .ok (afterPoll call, s) := by
        simp only [step, stepReceiving, hdecode, ok_bind, pure_eq_ok]
      exact ⟨[{ received := .value frame }], s, alone_cons hreceive rfl, rfl,
        (List.append_nil _).symm⟩
    | value pdu =>
      have hreceive :
          step { received := .value frame } (.receiving call) s = .ok (.removing pdu call, s) := by
        simp only [step, stepReceiving, hdecode, ok_bind, pure_eq_ok]
      simp only at h
      cases hremove : s.pipeline.queue.remove (Pipeline.correlationOf pdu) with
      | mk found queue =>
        rw [hremove] at h
        cases found with
        | none =>
          cases h
          have hdrop : step {} (.removing pdu call) s = .ok (afterPoll call, s) := by
            rw [step, stepRemoving, hremove, pure_eq_ok]
          exact ⟨[{ received := .value frame }, {}], s,
            alone_cons hreceive (alone_cons hdrop rfl), rfl,
            (List.append_nil _).symm⟩
        | some r =>
          obtain ⟨⟨log', p₁⟩, hcomplete, h⟩ := bind_eq_ok.mp h
          cases h
          obtain ⟨latencyUs, hlatency, h⟩ := bind_eq_ok.mp hcomplete
          obtain ⟨⟨expired, queue'⟩, hsweep, h⟩ := bind_eq_ok.mp h
          cases h
          have htake : step {} (.removing pdu call) s =
              .ok (.dispatching r pdu call, s.withQueue queue) := by
            rw [step, stepRemoving, hremove, pure_eq_ok]
          have hdispatch : step { now := matchedAt } (.dispatching r pdu call) (s.withQueue queue) =
              .ok (.sweeping call, ((s.withQueue queue).complete latencyUs).invoke
                r.callback (.value pdu)) := by
            simp only [step, hlatency, ok_bind, pure_eq_ok]
          have hswept : step { now := sweptAt } (.sweeping call)
              (((s.withQueue queue).complete latencyUs).invoke r.callback (.value pdu)) =
              .ok (.expiring expired call,
                (((s.withQueue queue).complete latencyUs).invoke r.callback (.value pdu)).withQueue
                  queue') := by
            have hsweep' :
                (((s.withQueue queue).complete latencyUs).invoke r.callback
                  (.value pdu)).pipeline.queue.removeExpired
                  sweptAt = .ok (expired, queue') := hsweep
            simp only [step, hsweep', ok_bind, pure_eq_ok]
          obtain ⟨ms, s', hrest, hpipeline, hinvoked⟩ := expiring_alone expired call
            ((((s.withQueue queue).complete latencyUs).invoke r.callback (.value pdu)).withQueue
              queue')
          refine ⟨_, s',
            alone_cons hreceive (alone_cons htake (alone_cons hdispatch (alone_cons hswept hrest))),
            hpipeline, ?_⟩
          rw [hinvoked, ← List.append_assoc]
          rfl

end alone

end Control

end ModbusPp

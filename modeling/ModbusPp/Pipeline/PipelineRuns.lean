import ModbusPp.Foundation.Ledger
import ModbusPp.Pipeline.Pipeline

/-! Runs of a pipeline: any sequence of calls, each with its clock readings, over
any transport. A submission gives its callback the number it has among the
submissions, so every request of a run can be told from every other. The requests
in flight are a store in the sense of `Ledger`: a submission enters at most one
request, and a poll or a cancel takes some out. -/

namespace ModbusPp

open Foundation
open List (Perm)

/-- A call of the pipeline, with the clock readings made in it. -/
inductive PipelineCall
  | submit (request : PDU) (hasCallback : Bool) (timeout : Milliseconds) (now : Timestamp)
  | poll (matchedAt sweptAt : Timestamp)
  | cancel (id : CorrelationID)

inductive PipelineOutcome
  | submitted (result : Result CorrelationID)
  | polled (log : PollLog)
  | cancelled (found : Bool)

/-- A pipeline in use, and the number of submissions so far. -/
structure PipelineUse (τ : Type) extends Pipelining τ where
  submissions : ℕ := 0

namespace PipelineUse

variable {τ : Type}

def start (config : PipelineConfig) (net : τ) : PipelineUse τ where
  pipeline := .create config
  net := net

def inFlight (s : PipelineUse τ) : List PendingRequest := s.pipeline.queue.pending

end PipelineUse

/-- A call that returned, between the states before and after it. -/
structure PipelineEvent (τ : Type) where
  call : PipelineCall
  outcome : PipelineOutcome
  before : PipelineUse τ
  after : PipelineUse τ

/-- How a request leaves the queue. -/
inductive Exit
  | response (pdu : PDU)
  | expiry
  | cancel
  deriving DecidableEq

/-- The invocations that belong to the exit of a request. -/
def Exit.invocations (r : PendingRequest) : Exit → List Invocation
  | .response pdu => r.callback.invoke (.value pdu)
  | .expiry => r.callback.invoke (.fail .timeoutExpired)
  | .cancel => []

namespace PipelineEvent

variable {τ : Type}

/-- The log of a poll; the other calls have nothing in it. -/
def log (e : PipelineEvent τ) : PollLog :=
  match e.outcome with
  | .polled log => log
  | _ => {}

/-- The requests that the event put into the queue. -/
def entered (e : PipelineEvent τ) : List PendingRequest :=
  e.after.inFlight.filter (· ∉ e.before.inFlight)

/-- The requests that the event took out of the queue, each with the reason. -/
def exits (e : PipelineEvent τ) : List (PendingRequest × Exit) :=
  match e.call with
  | .submit _ _ _ _ => []
  | .poll _ _ => e.log.answered.toList.map (fun (r, pdu) => (r, .response pdu)) ++
      e.log.expired.map (·, .expiry)
  | .cancel id => (e.before.pipeline.queue.find id).toList.map (·, .cancel)

def left (e : PipelineEvent τ) : List PendingRequest := e.exits.map Prod.fst

end PipelineEvent

namespace PipelineUse

variable {τ : Type} (T : Transport τ)

/-- Make a call; the callback of a submission gets the submission's number. -/
def step (call : PipelineCall) (s : PipelineUse τ) : Checked (PipelineEvent τ × PipelineUse τ) :=
  match call with
  | .submit request hasCallback timeout now => do
    let (result, t) ← Pipeline.submit T request ⟨s.submissions, hasCallback⟩
      timeout now s.toPipelining
    let after : PipelineUse τ := ⟨t, s.submissions + 1⟩
    return (⟨call, .submitted result, s, after⟩, after)
  | .poll matchedAt sweptAt => do
    let (log, t) ← Pipeline.poll T matchedAt sweptAt s.toPipelining
    let after : PipelineUse τ := ⟨t, s.submissions⟩
    return (⟨call, .polled log, s, after⟩, after)
  | .cancel id => do
    let (found, p) := s.pipeline.cancel id
    let after : PipelineUse τ := ⟨⟨p, s.net⟩, s.submissions⟩
    return (⟨call, .cancelled found, s, after⟩, after)

variable {T} {s s' : PipelineUse τ} {e : PipelineEvent τ}

theorem step_submit {request : PDU} {hasCallback : Bool} {timeout : Milliseconds} {now : Timestamp}
    (h : step T (.submit request hasCallback timeout now) s = .ok (e, s')) :
    ∃ result, Pipeline.submit T request ⟨s.submissions, hasCallback⟩ timeout now s.toPipelining =
        .ok (result, s'.toPipelining) ∧
      s'.submissions = s.submissions + 1 ∧
      e = ⟨.submit request hasCallback timeout now, .submitted result, s, s'⟩ := by
  obtain ⟨⟨result, t⟩, hsubmit, h⟩ := bind_eq_ok.mp h
  cases h
  exact ⟨result, hsubmit, rfl, rfl⟩

theorem step_poll {matchedAt sweptAt : Timestamp}
    (h : step T (.poll matchedAt sweptAt) s = .ok (e, s')) :
    ∃ log, Pipeline.poll T matchedAt sweptAt s.toPipelining = .ok (log, s'.toPipelining) ∧
      s'.submissions = s.submissions ∧ e = ⟨.poll matchedAt sweptAt, .polled log, s, s'⟩ := by
  obtain ⟨⟨log, t⟩, hpoll, h⟩ := bind_eq_ok.mp h
  cases h
  exact ⟨log, hpoll, rfl, rfl⟩

theorem step_cancel {id : CorrelationID} (h : step T (.cancel id) s = .ok (e, s')) :
    s'.pipeline = { s.pipeline with queue := s.pipeline.queue.erase id } ∧
    s'.submissions = s.submissions ∧
      e = ⟨.cancel id, .cancelled (decide (id ∈ s.pipeline.queue.ids)), s, s'⟩ := by
  cases h
  exact ⟨rfl, rfl, rfl⟩

theorem step_event {call : PipelineCall} (h : step T call s = .ok (e, s')) :
    e.call = call ∧ e.before = s ∧ e.after = s' := by
  cases call with
  | submit request hasCallback timeout now =>
    obtain ⟨result, -, -, rfl⟩ := step_submit h
    exact ⟨rfl, rfl, rfl⟩
  | poll matchedAt sweptAt =>
    obtain ⟨log, -, -, rfl⟩ := step_poll h
    exact ⟨rfl, rfl, rfl⟩
  | cancel id =>
    obtain ⟨-, -, rfl⟩ := step_cancel h
    exact ⟨rfl, rfl, rfl⟩

/-- The events of a run are steps. -/
theorem run_events {calls : List PipelineCall} {events : List (PipelineEvent τ)}
    (hrun : runAll (step T) calls s = .ok (events, s')) :
    ∀ e ∈ events, step T e.call e.before = .ok (e, e.after) := by
  refine (runAll_keeps (fun _ => True) _ (fun call s e s' _ h => ⟨trivial, ?_⟩)
    calls trivial hrun).2
  obtain ⟨hcall, hbefore, hafter⟩ := step_event h
  rw [hcall, hbefore, hafter, h]

/-- What follows an event of a run is a run from the state after it. -/
theorem run_after {calls : List PipelineCall} {earlier later : List (PipelineEvent τ)}
    (hrun : runAll (step T) calls s = .ok (earlier ++ e :: later, s')) :
    ∃ calls', runAll (step T) calls' e.after = .ok (later, s') := by
  obtain ⟨-, calls₂, s₁, -, -, hrest⟩ := runAll_split hrun
  cases calls₂ with
  | nil => cases hrest
  | cons call calls' =>
    obtain ⟨e', s₂, later', hfirst, hlater, heq⟩ := runAll_cons.mp hrest
    cases heq
    exact ⟨calls', (step_event hfirst).2.2 ▸ hlater⟩

theorem filter_new {α : Type} [DecidableEq α] {l : List α} {a : α} (h : a ∉ l) :
    (l ++ [a]).filter (· ∉ l) = [a] := by
  simp [List.filter_append, h]

theorem filter_sub {α : Type} [DecidableEq α] {l l' : List α} (h : ∀ a ∈ l, a ∈ l') :
    l.filter (· ∉ l') = [] :=
  List.filter_eq_nil_iff.mpr (fun a ha => by simp [h a ha])

/-- A submission enters nothing, or its own request. -/
theorem entered_submit {request : PDU} {hasCallback : Bool} {timeout : Milliseconds}
    {now : Timestamp} (h : step T (.submit request hasCallback timeout now) s = .ok (e, s')) :
    (e.entered = [] ∧ s'.inFlight = s.inFlight) ∨
    (s.pipeline.nextId ∉ s.pipeline.queue.ids ∧
      e.entered = [s.pipeline.nextPending request ⟨s.submissions, hasCallback⟩ timeout now] ∧
      s'.inFlight = s.inFlight ++
        [s.pipeline.nextPending request ⟨s.submissions, hasCallback⟩ timeout now]) := by
  obtain ⟨result, hsubmit, -, rfl⟩ := step_submit h
  obtain ⟨sent, queue, -, hpipeline, hcases⟩ := Pipeline.submit_cases T hsubmit
  have hqueue : s'.inFlight = queue.pending := by rw [inFlight, hpipeline]
  rcases hcases with ⟨-, -, rfl⟩ | ⟨-, -, -, rfl⟩ | ⟨-, -, -, -, rfl⟩ |
    ⟨-, -, hfree, -, -, hpending⟩
  iterate 3 exact .inl ⟨filter_sub (by rw [hqueue]; exact fun _ h => h), hqueue⟩
  rw [hpending] at hqueue
  refine .inr ⟨hfree, ?_, hqueue⟩
  rw [PipelineEvent.entered, hqueue]
  exact filter_new fun hmem => hfree (RequestQueue.mem_ids.mpr ⟨_, hmem, rfl⟩)

/-- A poll enters nothing. It takes out nothing, or the request it answered and
those overdue. -/
theorem left_poll {matchedAt sweptAt : Timestamp}
    (h : step T (.poll matchedAt sweptAt) s = .ok (e, s')) :
    e.entered = [] ∧ s.inFlight.Perm (e.left ++ s'.inFlight) := by
  obtain ⟨log, hpoll, -, rfl⟩ := step_poll h
  rcases Pipeline.poll_cases T hpoll with ⟨hsame, hnone, hexpired, -, -⟩ |
    ⟨frame, pdu, r, -, -, -, hcompletes⟩
  · have hqueue : s'.inFlight = s.inFlight := by rw [inFlight, hsame, inFlight]
    refine ⟨filter_sub (by rw [hqueue]; exact fun _ h => h), ?_⟩
    simp [PipelineEvent.left, PipelineEvent.exits, PipelineEvent.log, hnone, hexpired, hqueue]
  · have hbalance : s.inFlight.Perm (r :: log.expired ++ s'.inFlight) := by
      calc s.inFlight
          Perm _ ((s.pipeline.queue.find r.id).toList ++ (s.pipeline.queue.erase r.id).pending) :=
            s.pipeline.queue.perm_find_erase r.id
          _ = r :: (s.pipeline.queue.erase r.id).pending := by
            rw [(RequestQueue.find_eq_some.mp hcompletes.found).2, hcompletes.found]
            rfl
          Perm _ (r :: (log.expired ++ s'.inFlight)) := by
            simp only [hcompletes.expired, inFlight, hcompletes.kept, decide_not]
            exact .cons _ (List.filter_append_perm _ _).symm
    refine ⟨filter_sub fun r hr => hbalance.mem_iff.mpr (List.mem_append_right _ hr), ?_⟩
    simpa [PipelineEvent.left, PipelineEvent.exits, PipelineEvent.log, hcompletes.answered,
      Function.comp_def]
      using hbalance

/-- A cancel enters nothing. It takes out the request under the id, if there is one. -/
theorem left_cancel {id : CorrelationID} (h : step T (.cancel id) s = .ok (e, s')) :
    e.entered = [] ∧ s.inFlight.Perm (e.left ++ s'.inFlight) := by
  obtain ⟨hpipeline, -, rfl⟩ := step_cancel h
  have hqueue : s'.inFlight = (s.pipeline.queue.erase id).pending := by rw [inFlight, hpipeline]
  refine ⟨filter_sub fun r hr => ?_, ?_⟩
  · rw [hqueue] at hr
    exact (RequestQueue.mem_erase.mp hr).1
  · rw [hqueue]
    simpa [inFlight, PipelineEvent.left, PipelineEvent.exits, Function.comp_def]
      using s.pipeline.queue.perm_find_erase id

/-- What a call does to the requests in flight: it enters a request, labelled with
the number of the submission, or enters nothing and takes some out. -/
theorem step_flow {call : PipelineCall} (h : step T call s = .ok (e, s')) :
    (∃ r, r.callback.submission = s.submissions ∧ s'.submissions = s.submissions + 1 ∧
      e.entered = [r] ∧
      e.left = [] ∧ s'.inFlight = s.inFlight ++ [r]) ∨
    (s.submissions ≤ s'.submissions ∧ e.entered = [] ∧
      s.inFlight.Perm (e.left ++ s'.inFlight)) := by
  cases call with
  | submit request hasCallback timeout now =>
    obtain ⟨hnext, hleft⟩ : s'.submissions = s.submissions + 1 ∧ e.left = [] := by
      obtain ⟨result, -, hnext, rfl⟩ := step_submit h
      exact ⟨hnext, rfl⟩
    rcases entered_submit h with ⟨hentered, hsame⟩ | ⟨-, hentered, hadded⟩
    · exact .inr ⟨by omega, hentered, by rw [hleft, hsame, List.nil_append]⟩
    · exact .inl ⟨_, rfl, hnext, hentered, hleft, hadded⟩
  | poll matchedAt sweptAt =>
    obtain ⟨log, -, hnext, -⟩ := step_poll h
    exact .inr ⟨hnext.ge, left_poll h⟩
  | cancel id => exact .inr ⟨(step_cancel h).2.1.ge, left_cancel h⟩

/-- The requests in flight as a store, labelled by the submission they came from. -/
def inFlightLedger (T : Transport τ) : Ledger (step T) PendingRequest where
  content := inFlight
  entered := PipelineEvent.entered
  left := PipelineEvent.left
  label r := r.callback.submission
  next := submissions
  balance h := by
    rcases step_flow h with ⟨r, -, -, hentered, hleft, hadded⟩ | ⟨-, hentered, hbalance⟩
    · rw [hentered, hleft, hadded, List.nil_append]
    · rwa [hentered, List.append_nil]
  next_le h := by
    rcases step_flow h with ⟨r, -, hnext, -⟩ | ⟨hnext, -⟩
    · omega
    · exact hnext
  fresh h r hr := by
    rcases step_flow h with ⟨r', hlabel, hnext, hentered, -⟩ | ⟨-, hentered, -⟩
    · rw [hentered, List.mem_singleton] at hr
      rw [hr, hlabel, hnext]
      exact ⟨le_rfl, Nat.lt_succ_self _⟩
    · rw [hentered] at hr
      contradiction
  distinct h := by
    rcases step_flow h with ⟨r, -, -, hentered, -⟩ | ⟨-, hentered, -⟩ <;> simp [hentered]

end PipelineUse

end ModbusPp

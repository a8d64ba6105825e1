import ModbusPp.Client.Operation
import ModbusPp.Foundation.Run

/-! Late answers. The peer answers every request with its unit, function code and
transaction id, once and over a lossless queue, but when it likes: the receive of
a request may have given up by then. `transact` takes the first frame of the queue
for its answer, so one late answer shifts all the exchanges that follow. -/

namespace ModbusPp

open Foundation

/-- The transaction id in the first two bytes of a TCP frame. -/
def transactionOf (frame : List UInt8) : UInt16 := word (frame.getD 0 0) (frame.getD 1 0)

/-- The frame is an answer to the request: it decodes, and has the request's unit,
transaction id and function code (the latter possibly with the exception bit). -/
def answers (request frame : List UInt8) : Bool :=
  match FrameCodec.unwrapTcp (.ofList frame) with
  | .ok (.value (unitId, pdu, txnId)) =>
    unitId == request.getD 6 0 && txnId == transactionOf request &&
      (pdu.functionCode.byte == request.getD 7 0 ||
        pdu.functionCode.byte == request.getD 7 0 ||| 0x80)
  | _ => false

theorem answers_unwrap {request frame : List UInt8} (h : answers request frame = true) :
    ∃ unitId pdu, FrameCodec.unwrapTcp (.ofList frame) =
      .ok (.value (unitId, pdu, transactionOf request)) := by
  unfold answers at h
  split at h
  · rename_i unitId pdu txnId hunwrap
    simp only [Bool.and_eq_true, beq_iff_eq] at h
    exact ⟨unitId, pdu, by rw [hunwrap, h.1.2]⟩
  · contradiction

/-- An answer, with the number of the request it answers. -/
structure Reply where
  request : ℕ
  frame : List UInt8

/-- The peer and the queue from it to the client. Entry `k` of the schedule is
what the peer tries to send while the `k`-th of the coming receives waits; what
answers no open request is not sent. -/
structure LatePeer where
  requests : List (List UInt8) := []
  answered : List ℕ := []
  queue : List Reply := []
  schedule : List (List Reply)
  consumed : Option (List UInt8) := none

namespace LatePeer

def accept (frame : List UInt8) (p : LatePeer) : LatePeer :=
  { p with requests := p.requests ++ [frame] }

def answer (p : LatePeer) (r : Reply) : LatePeer :=
  match p.requests[r.request]? with
  | some request =>
    if r.request ∉ p.answered ∧ answers request r.frame = true then
      { p with answered := r.request :: p.answered, queue := p.queue ++ [r] }
    else p
  | none => p

/-- The answers that come in while a receive waits. -/
def arrive (p : LatePeer) : LatePeer :=
  { (p.schedule.headD []).foldl answer p with schedule := p.schedule.tail }

/-- The client's side: sends are never lost, a receive takes the first frame of
the queue or gives up. -/
def transport : Transport LatePeer where
  send frame p := .ok (.ok, p.accept frame)
  receive _ p :=
    match p.arrive.queue with
    | [] => .ok (.fail .timeoutExpired, { p.arrive with consumed := none })
    | r :: rest => .ok (.value r.frame, { p.arrive with queue := rest, consumed := some r.frame })

/-- Everything in the queue answers the request it is tagged with. -/
def Sound (p : LatePeer) : Prop :=
  ∀ r ∈ p.queue, ∃ request, p.requests[r.request]? = some request ∧ answers request r.frame = true

theorem accept_sound {p : LatePeer} (h : p.Sound) (frame : List UInt8) :
    (p.accept frame).Sound := by
  intro r hr
  obtain ⟨request, hget, hans⟩ := h r hr
  refine ⟨request, ?_, hans⟩
  rw [accept, List.getElem?_append_left (List.getElem?_eq_some_iff.mp hget).1, hget]

theorem answer_requests (p : LatePeer) (r : Reply) : (p.answer r).requests = p.requests := by
  unfold answer
  split
  · split_ifs <;> rfl
  · rfl

theorem answer_sound {p : LatePeer} (h : p.Sound) (r : Reply) : (p.answer r).Sound := by
  unfold answer
  split
  · rename_i request hget
    split_ifs with hok
    · intro r' hr'
      rcases List.mem_append.mp hr' with hold | hnew
      · exact h r' hold
      · obtain rfl := List.mem_singleton.mp hnew
        exact ⟨request, hget, hok.2⟩
    · exact h
  · exact h

theorem answers_keep (replies : List Reply) {p : LatePeer} (h : p.Sound) :
    (replies.foldl answer p).Sound ∧ (replies.foldl answer p).requests = p.requests := by
  induction replies generalizing p with
  | nil => exact ⟨h, rfl⟩
  | cons r replies ih =>
    obtain ⟨hsound, hreq⟩ := ih (answer_sound h r)
    exact ⟨hsound, hreq.trans (answer_requests p r)⟩

theorem arrive_sound {p : LatePeer} (h : p.Sound) : p.arrive.Sound := (answers_keep _ h).1

theorem arrive_requests {p : LatePeer} (h : p.Sound) : p.arrive.requests = p.requests :=
  (answers_keep _ h).2

/-- Every request has been answered and every answer taken. -/
structure Settled (p : LatePeer) : Prop where
  queue_nil : p.queue = []
  answered_iff : ∀ k, k ∈ p.answered ↔ k < p.requests.length

theorem answers_settled (replies : List Reply) {p : LatePeer}
    (hall : ∀ k, k ∈ p.answered ↔ k < p.requests.length) : replies.foldl answer p = p := by
  induction replies with
  | nil => rfl
  | cons r replies ih =>
    have hnone : p.answer r = p := by
      unfold answer
      split
      · rename_i request hget
        have hlt := (List.getElem?_eq_some_iff.mp hget).1
        rw [if_neg (fun h => h.1 ((hall _).mpr hlt))]
      · rfl
    rw [List.foldl_cons, hnone, ih]

theorem answers_open {request : List UInt8} (replies : List Reply)
    {p : LatePeer} (hqueue : p.queue = []) {n : ℕ} (hlen : p.requests.length = n + 1)
    (hget : p.requests[n]? = some request) (hopen : ∀ k, k ∈ p.answered ↔ k < n)
    (hcomes : ∃ r ∈ replies, r.request = n ∧ answers request r.frame = true) :
    ∃ r, (replies.foldl answer p).queue = [r] ∧ r.request = n ∧
      ∀ k, k ∈ (replies.foldl answer p).answered ↔
        k < (replies.foldl answer p).requests.length := by
  induction replies with
  | nil => simp at hcomes
  | cons r replies ih =>
    rw [List.foldl_cons]
    by_cases hown : r.request = n ∧ answers request r.frame = true
    · have hsent :
          p.answer r = { p with answered := r.request :: p.answered, queue := p.queue ++ [r] } := by
        rw [answer, hown.1, hget]
        simp [hopen, hown.2]
      have hall : ∀ k, k ∈ (p.answer r).answered ↔ k < (p.answer r).requests.length := by
        intro k
        simp only [hsent, hlen, List.mem_cons, hopen, hown.1]
        omega
      rw [answers_settled replies hall]
      exact ⟨r, by simp [hsent, hqueue], hown.1, hall⟩
    · have hnone : p.answer r = p := by
        unfold answer
        split
        · rename_i request' hget'
          rw [if_neg]
          rintro ⟨hnew, hans⟩
          have hlt := (List.getElem?_eq_some_iff.mp hget').1
          have heq : r.request = n := by
            have := mt (hopen r.request).mpr hnew
            omega
          rw [heq, hget, Option.some.injEq] at hget'
          exact hown ⟨heq, hget' ▸ hans⟩
        · rfl
      rw [hnone]
      apply ih
      obtain ⟨r', hmem, hr'⟩ := hcomes
      rcases List.mem_cons.mp hmem with rfl | hmem
      · exact absurd hr' hown
      · exact ⟨r', hmem, hr'⟩

end LatePeer

/-- One call of the client, as seen on the wire: the frame it sent, what it
returned and the frame its receive consumed. -/
structure Exchange where
  sent : List UInt8
  outcome : Outcome
  consumed : Option (List UInt8)

/-- The response the call consumed carries the transaction id of its own request. -/
def Exchange.Matched (e : Exchange) : Prop :=
  ∃ frame unitId pdu, e.consumed = some frame ∧
    FrameCodec.unwrapTcp (.ofList frame) = .ok (.value (unitId, pdu, transactionOf e.sent))

namespace Operation

def exchange (op : Operation) (s : Running LatePeer) : Checked (Exchange × Running LatePeer) := do
  let (outcome, s) ← op.run LatePeer.transport s
  return (⟨s.net.requests.getLastD [], outcome, s.net.consumed⟩, s)

theorem exchange_eq {op : Operation} {s s' : Running LatePeer} {out : Outcome}
    (hrun : op.run LatePeer.transport s = .ok (out, s')) :
    op.exchange s = .ok (⟨s'.net.requests.getLastD [], out, s'.net.consumed⟩, s') := by
  simp [exchange, hrun]

variable {op : Operation} {s : Running LatePeer}

theorem exchange_timedOut (hqueue : (s.net.accept (op.frame s.client)).arrive.queue = []) :
    ∃ e, op.exchange s =
        .ok (e, ⟨s.client.advance,
          { (s.net.accept (op.frame s.client)).arrive with consumed := none }⟩) ∧
      e.outcome.hasValue = false := by
  have hsent : LatePeer.transport.send (op.frame s.client) s.net =
    .ok (.ok, s.net.accept (op.frame s.client)) := rfl
  have hrecv :
    LatePeer.transport.receive s.client.config.defaultTimeout (s.net.accept (op.frame s.client)) =
      .ok (.fail .timeoutExpired,
        { (s.net.accept (op.frame s.client)).arrive with consumed := none }) := by
    simp only [LatePeer.transport, hqueue]
  obtain ⟨out, hfinish, -, hfails⟩ := op.finish_failure (makeErrorCode .timeoutExpired)
  exact ⟨_, exchange_eq (run_notReceived hsent rfl hrecv hfinish), hfails (by decide)⟩

theorem exchange_received (hsound : s.net.Sound) {r : Reply} {rest : List Reply}
    (hqueue : (s.net.accept (op.frame s.client)).arrive.queue = r :: rest) :
    ∃ e, op.exchange s =
        .ok (e, ⟨s.client.advance, { (s.net.accept (op.frame s.client)).arrive with
          queue := rest, consumed := some r.frame }⟩) ∧
      e.sent = op.frame s.client ∧ e.consumed = some r.frame := by
  have harrived := LatePeer.arrive_sound (LatePeer.accept_sound hsound (op.frame s.client))
  have hsent : LatePeer.transport.send (op.frame s.client) s.net =
    .ok (.ok, s.net.accept (op.frame s.client)) := rfl
  have hrecv :
    LatePeer.transport.receive s.client.config.defaultTimeout (s.net.accept (op.frame s.client)) =
      .ok (.value r.frame, { (s.net.accept (op.frame s.client)).arrive with
        queue := rest, consumed := some r.frame }) := by
    simp only [LatePeer.transport, hqueue]
  obtain ⟨request, -, hans⟩ := harrived r (by rw [hqueue]; exact List.mem_cons_self)
  obtain ⟨unitId, pdu, hunwrap⟩ := answers_unwrap hans
  obtain ⟨out, hfinish⟩ := op.finish_total (Client.responseResult pdu)
  refine ⟨_, exchange_eq
    (run_received hsent rfl hrecv (Client.decodeResponse_value hunwrap) hfinish), ?_, rfl⟩
  change (s.net.accept (op.frame s.client)).arrive.requests.getLastD [] = op.frame s.client
  rw [LatePeer.arrive_requests (LatePeer.accept_sound hsound _), LatePeer.accept,
    List.getLastD_concat]

/-- No answer to an earlier request is ahead of the operation's own: the first
frame in the queue, once the answers that come in time are there, is not late. -/
def OwnFirst (op : Operation) (s : Running LatePeer) : Prop :=
  ∀ r, (s.net.accept (op.frame s.client)).arrive.queue.head? = some r →
    r.request = s.net.requests.length

/-- One operation: it always returns, it keeps the queue sound, and without a late
answer ahead its success is the success of its own exchange. -/
theorem exchange_ownFirst (op : Operation) (s : Running LatePeer)
    (hsound : s.net.Sound) (hown : op.OwnFirst s) :
    ∃ e s', op.exchange s = .ok (e, s') ∧ s'.net.Sound ∧
      (e.outcome.hasValue = true → e.Matched) := by
  have harrived := LatePeer.arrive_sound (LatePeer.accept_sound hsound (op.frame s.client))
  have hrequests := LatePeer.arrive_requests (LatePeer.accept_sound hsound (op.frame s.client))
  cases hqueue : (s.net.accept (op.frame s.client)).arrive.queue with
  | nil =>
    obtain ⟨e, he, hfails⟩ := exchange_timedOut hqueue
    refine ⟨e, _, he, harrived, ?_⟩
    intro hvalue
    rw [hfails] at hvalue
    contradiction
  | cons r rest =>
    obtain ⟨e, he, hsent, hconsumed⟩ := exchange_received hsound hqueue
    refine ⟨e, _, he, ?_, ?_⟩
    · intro r' hr'
      exact harrived r' (by rw [hqueue]; exact List.mem_cons_of_mem r hr')
    · -- the consumed answer is the one to the request just accepted
      intro _
      obtain ⟨request, hget, hans⟩ := harrived r (by rw [hqueue]; exact List.mem_cons_self)
      obtain ⟨unitId, pdu, hunwrap⟩ := answers_unwrap hans
      have hnumber := hown r (by rw [hqueue]; rfl)
      rw [hrequests, LatePeer.accept, hnumber, List.getElem?_concat_length,
        Option.some.injEq] at hget
      exact ⟨r.frame, unitId, pdu, hconsumed, by rw [hunwrap, hsent, hget]⟩

/-- The answer to the operation's request comes in before its receive gives up. -/
def InTime (op : Operation) (s : Running LatePeer) : Prop :=
  ∃ r ∈ s.net.schedule.headD [], r.request = s.net.requests.length ∧
    answers (op.frame s.client) r.frame = true

/-- With nothing left over and the own answer in time, the own answer is the only
one in the queue. -/
theorem arrive_inTime (hsettled : s.net.Settled) (hintime : op.InTime s) :
    ∃ r, (s.net.accept (op.frame s.client)).arrive.queue = [r] ∧ r.request = s.net.requests.length ∧
      ∀ k, k ∈ (s.net.accept (op.frame s.client)).arrive.answered ↔
        k < (s.net.accept (op.frame s.client)).arrive.requests.length :=
  LatePeer.answers_open (s.net.schedule.headD []) (p := s.net.accept (op.frame s.client))
    hsettled.queue_nil
    (by simp [LatePeer.accept]) (by simp [LatePeer.accept]) hsettled.answered_iff hintime

/-- A run in which no receive gives up has no late answers. -/
theorem guarded_ownFirst_of_inTime (client : Client) (schedule : List (List Reply))
    (ops : List Operation) (h : Guarded exchange InTime ops ⟨client, { schedule }⟩) :
    Guarded exchange OwnFirst ops ⟨client, { schedule }⟩ := by
  refine Guarded.imp (fun s => s.net.Sound ∧ s.net.Settled) ?_ ?_ ops ⟨?_, rfl, ?_⟩ h
  · rintro op s ⟨-, hsettled⟩ hintime r hr
    obtain ⟨r', hqueue, hnumber, -⟩ := arrive_inTime hsettled hintime
    rw [hqueue, List.head?_cons, Option.some.injEq] at hr
    rw [← hr, hnumber]
  · rintro op s e s' ⟨hsound, hsettled⟩ hintime he
    obtain ⟨r, hqueue, -, hall⟩ := arrive_inTime hsettled hintime
    obtain ⟨e', he', -⟩ := exchange_received hsound hqueue
    rw [he', Except.ok.injEq, Prod.mk.injEq] at he
    rw [← he.2]
    exact ⟨(fun r' hr' => nomatch hr'), rfl, hall⟩
  · exact fun r hr => nomatch hr
  · simp

/-- In every run in which no late answer is ahead of an operation's own, every
operation that succeeds has consumed the answer to its own request. -/
theorem lateAnswers_matched (client : Client) (schedule : List (List Reply)) (ops : List Operation)
    (hown : Guarded exchange OwnFirst ops ⟨client, { schedule }⟩) :
    ∃ exchanges s', runAll exchange ops ⟨client, { schedule }⟩ = .ok (exchanges, s') ∧
      exchanges.length = ops.length ∧ ∀ e ∈ exchanges, e.outcome.hasValue = true → e.Matched := by
  have hstart : LatePeer.Sound { schedule } := by
    intro r hr
    contradiction
  obtain ⟨exchanges, s', hrun, -, hlen, hall⟩ := runAll_of_guarded (fun s => s.net.Sound)
    (fun e => e.outcome.hasValue = true → e.Matched) exchange_ownFirst ops hstart hown
  exact ⟨exchanges, s', hrun, hlen, hall⟩

/-- The peer answers the first request and the third. -/
def secondUnanswered : List (List Reply) :=
  [[⟨0, [0, 1, 0, 0, 0, 5, 1, 3, 2, 0, 7]⟩], [], [⟨2, [0, 3, 0, 0, 0, 5, 1, 3, 2, 0, 9]⟩]]

def threeReads : List Operation :=
  [readHoldingRegisters 1 0x10 1, readHoldingRegisters 1 0x20 1, readHoldingRegisters 1 0x30 1]

/-- The second of three reads gives up, and the third has its own answer. -/
theorem lateAnswers_matched_given_up : ∃ exchanges s',
    runAll exchange threeReads ⟨{}, { schedule := secondUnanswered }⟩ = .ok (exchanges, s') ∧
      exchanges.map (·.outcome.hasValue) = [true, false, true] ∧
      ∀ e ∈ exchanges, e.outcome.hasValue = true → e.Matched := by
  have hown : Guarded exchange OwnFirst threeReads ⟨{}, { schedule := secondUnanswered }⟩ := by
    refine .cons ?_ rfl (.cons ?_ rfl (.cons ?_ rfl trivial))
    · rintro r ⟨⟩
      rfl
    · rintro r ⟨⟩
    · rintro r ⟨⟩
      rfl
  obtain ⟨exchanges, s', hrun, houtcomes⟩ : ∃ exchanges s',
      runAll exchange threeReads ⟨{}, { schedule := secondUnanswered }⟩ = .ok (exchanges, s') ∧
        exchanges.map (·.outcome.hasValue) = [true, false, true] := ⟨_, _, rfl, rfl⟩
  obtain ⟨exchanges', s'', hrun', -, hall⟩ :=
    lateAnswers_matched {} secondUnanswered threeReads hown
  rw [hrun, Except.ok.injEq, Prod.mk.injEq] at hrun'
  rw [← hrun'.1] at hall
  exact ⟨exchanges, s', hrun, houtcomes, hall⟩

/-- Two reads, of which the first gives up before its answer comes: the second
returns the first one's register. -/
theorem lateAnswers_mismatched :
    ¬∀ exchanges s', runAll exchange [readHoldingRegisters 1 0x10 1, readHoldingRegisters 1 0x20 1]
        ⟨{}, { schedule := [[], [⟨0, [0, 1, 0, 0, 0, 5, 1, 3, 2, 0, 7]⟩]] }⟩ = .ok (exchanges, s') →
      ∀ e ∈ exchanges, e.outcome.hasValue = true → e.Matched := by
  intro h
  have hall := h _ _ rfl
  have hsecond := hall _ (List.mem_cons_of_mem _ List.mem_cons_self) rfl
  obtain ⟨frame, unitId, pdu, hconsumed, hunwrap⟩ := hsecond
  cases hconsumed
  have hfirst : FrameCodec.unwrapTcp (.ofList [0, 1, 0, 0, 0, 5, 1, 3, 2, 0, 7]) =
      .ok (.value (1, .makeStandard .readHoldingRegisters [2, 0, 7], 1)) := by decide
  rw [hfirst] at hunwrap
  simp only [Except.ok.injEq, Result.value.injEq, Prod.mk.injEq] at hunwrap
  exact absurd hunwrap.2.2 (by decide)

end Operation

end ModbusPp

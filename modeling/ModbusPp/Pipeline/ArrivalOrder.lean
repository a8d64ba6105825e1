import ModbusPp.Foundation.Matching
import ModbusPp.Pipeline.PipelineRuns
import ModbusPp.Transport.Traced

/-! Polls in a row. As long as nothing expires, each request in flight is completed by the
first frame that carries its id, and by no other, so what a row of polls does is fixed by the
frames that came in; and where no id comes twice, their order does not matter. -/

namespace ModbusPp

open Foundation

/-- The PDU in the frame, if it is for the request. -/
def PendingRequest.answerIn (frame : List UInt8) (r : PendingRequest) : Option PDU :=
  match PDU.deserialize (.ofList frame) with
  | .ok (.value pdu) => if Pipeline.correlationOf pdu = r.id then some pdu else none
  | _ => none

/-- The callback of the request with its answer. -/
def PendingRequest.completion (r : PendingRequest) (pdu : PDU) : List Invocation :=
  r.callback.invoke (.value pdu)

namespace PendingRequest

variable {frame : List UInt8} {r : PendingRequest} {pdu : PDU}

theorem answerIn_of_decode (h : PDU.deserialize (.ofList frame) = .ok (.value pdu))
    (r : PendingRequest) :
    r.answerIn frame = if Pipeline.correlationOf pdu = r.id then some pdu else none := by
  rw [answerIn, h]

theorem answerIn_eq_some : r.answerIn frame = some pdu ↔
    PDU.deserialize (.ofList frame) = .ok (.value pdu) ∧ Pipeline.correlationOf pdu = r.id := by
  rcases hdecode : PDU.deserialize (.ofList frame) with fault | pdu' | ec
  · simp [answerIn, hdecode]
  · rw [answerIn_of_decode hdecode]
    simp only [Except.ok.injEq, Result.value.injEq, Option.ite_none_right_eq_some,
      Option.some.injEq]
    constructor
    · rintro ⟨hid, rfl⟩
      exact ⟨rfl, hid⟩
    · rintro ⟨rfl, hid⟩
      exact ⟨hid, rfl⟩
  · simp [answerIn, hdecode]

end PendingRequest

namespace PipelineUse

variable {τ τ' : Type} {T : Transport τ} {T' : Transport τ'} {s s' : PipelineUse τ}
  {e : PipelineEvent τ}

/-- The frames that came in, in the order in which they did. -/
def received (events : List (PipelineEvent τ)) : List (List UInt8) :=
  events.flatMap fun e => e.log.frame.toList

/-- The callbacks that were called. -/
def invocations (events : List (PipelineEvent τ)) : List Invocation :=
  events.flatMap fun e => e.log.invoked

/-- No request in flight is overdue in the sweep of any of these polls, each given by its
two clock readings. -/
def InTime (clocks : List (Timestamp × Timestamp)) (s : PipelineUse τ) : Prop :=
  ∀ r ∈ s.inFlight, ∀ c ∈ clocks, ¬r.Overdue c.2

theorem step_serves {matchedAt sweptAt : Timestamp} (hquick : ∀ r ∈ s.inFlight, ¬r.Overdue sweptAt)
    (h : step T (.poll matchedAt sweptAt) s = .ok (e, s')) :
    Serves PendingRequest.answerIn PendingRequest.completion s.inFlight
      e.log.frame.toList s'.inFlight e.log.invoked := by
  obtain ⟨log, hpoll, -, rfl⟩ := step_poll h
  have hframe := Pipeline.poll_frame T hpoll
  change Serves _ _ _ log.frame.toList _ log.invoked
  rcases Pipeline.poll_cases T hpoll with ⟨hsame, -, -, hinvoked, hunmatched⟩ |
    ⟨frame, pdu, r, hlog, hdecode, -, hcompletes⟩
  · -- the frame, if there is one, is for none of the requests
    have hnone : ∀ r ∈ s.inFlight, firstFor PendingRequest.answerIn log.frame.toList r = none := by
      intro r hr
      refine List.findSome?_eq_none_iff.mpr fun frame hmem =>
        Option.eq_none_iff_forall_not_mem.mpr fun pdu hpdu => ?_
      obtain ⟨hdecode, hid⟩ := PendingRequest.answerIn_eq_some.mp hpdu
      have harriving := (Pipeline.arriving_iff T).mpr ⟨frame, hframe ▸ hmem, hdecode⟩
      exact hunmatched pdu harriving (RequestQueue.mem_ids.mpr ⟨r, hr, hid.symm⟩)
    constructor
    · rw [inFlight, hsame]
      exact (List.filter_eq_self.mpr fun r hr => by rw [hnone r hr]; rfl).symm
    · rw [hinvoked]
      refine List.Perm.of_eq (List.flatMap_eq_nil_iff.mpr fun r hr => ?_).symm
      rw [hnone r hr]
      rfl
  · obtain ⟨hmem, hid⟩ := RequestQueue.find_eq_some.mp hcompletes.found
    have hothers : ∀ r' ∈ (s.pipeline.queue.erase r.id).pending, ¬r'.Overdue sweptAt :=
      fun r' hr' => hquick r' (RequestQueue.mem_erase.mp hr').1
    have hexpired : log.expired = [] := by
      rw [hcompletes.expired]
      exact List.filter_eq_nil_iff.mpr fun r' hr' => by simpa using hothers r' hr'
    have hkept : s'.inFlight = (s.pipeline.queue.erase r.id).pending := by
      rw [inFlight, hcompletes.kept]
      exact List.filter_eq_self.mpr fun r' hr' => by simpa using hothers r' hr'
    have hanswer (r' : PendingRequest) : firstFor PendingRequest.answerIn log.frame.toList r' =
        if r.id = r'.id then some pdu else none := by
      rw [hlog, Option.toList_some, firstFor, List.findSome?_singleton,
        PendingRequest.answerIn_of_decode hdecode, hid]
    constructor
    · rw [hkept]
      refine List.filter_congr fun r' _ => ?_
      rw [hanswer]
      by_cases hsame : r.id = r'.id
      · simp [hsame]
      · simp [hsame, Ne.symm hsame]
    · have hfound : s.pipeline.queue.find r.id = some r := RequestQueue.find_eq_some.mpr ⟨hmem, rfl⟩
      have hperm := s.pipeline.queue.perm_find_erase r.id
      rw [hfound, Option.toList_some, List.singleton_append] at hperm
      have hnone : ∀ r' ∈ (s.pipeline.queue.erase r.id).pending,
          (firstFor PendingRequest.answerIn log.frame.toList r').elim [] r'.completion = [] := by
        intro r' hr'
        rw [hanswer, if_neg (Ne.symm (RequestQueue.mem_erase.mp hr').2)]
        rfl
      refine .trans ?_ (hperm.flatMap_right _).symm
      rw [List.flatMap_cons, List.flatMap_eq_nil_iff.mpr hnone, hanswer, if_pos rfl,
        hcompletes.invoked, hexpired]
      rfl

/-- A row of polls in which nothing expires serves the requests in flight with all that
came in. -/
theorem polls_serve {clocks : List (Timestamp × Timestamp)}
    {events : List (PipelineEvent τ)} (hquick : InTime clocks s)
    (hrun : runAll (step T) (clocks.map fun c => .poll c.1 c.2) s = .ok (events, s')) :
    Serves PendingRequest.answerIn PendingRequest.completion s.inFlight
      (received events) s'.inFlight
      (invocations events) := by
  refine runAll_serves inFlight (fun e => e.log.frame.toList) (fun e => e.log.invoked)
    (fun r => ∀ c ∈ clocks, ¬r.Overdue c.2) _ (fun call hcall t e t' hP h => ?_) hquick hrun
  obtain ⟨c, hc, rfl⟩ := List.mem_map.mp hcall
  exact step_serves (fun r hr => hP r hr c hc) h

/-- A row of polls in which nothing expires completes exactly those requests in flight for
which a frame came in: each of them leaves, its callback called once with the first PDU under
its id, and the others stay without a callback. -/
theorem polls_complete {clocks : List (Timestamp × Timestamp)}
    {events : List (PipelineEvent τ)} (hquick : InTime clocks s)
    (hrun : runAll (step T) (clocks.map fun c => .poll c.1 c.2) s = .ok (events, s')) :
    s'.inFlight =
      s.inFlight.filter (fun r => (firstFor PendingRequest.answerIn (received events) r).isNone) ∧
      (invocations events).Perm (s.inFlight.flatMap fun r =>
        (firstFor PendingRequest.answerIn (received events) r).elim [] r.completion) ∧
      ∀ r ∈ s.inFlight, ∀ pdu, firstFor PendingRequest.answerIn (received events) r = some pdu →
        Pipeline.correlationOf pdu = r.id := by
  have hserves := polls_serve hquick hrun
  refine ⟨hserves.kept, hserves.served, fun r _ pdu hpdu => ?_⟩
  obtain ⟨frame, -, hframe⟩ := List.exists_of_findSome?_eq_some hpdu
  exact (PendingRequest.answerIn_eq_some.mp hframe).2

/-- An empty response under an id. -/
def emptyResponse (id : CorrelationID) : List UInt8 :=
  (PDU.makeExtended { correlationId := id, extFunctionCode := .pipelineBegin } []).serialize

/-- Two requests in flight, under the ids 1 and 2, and these frames to come. -/
def twoWaiting (frames : List (List UInt8)) : PipelineUse (List (List UInt8)) where
  pipeline := { queue := {
    pending := [⟨1, .makeExtended {} [], ⟨0⟩, 1000, ⟨0, true⟩⟩,
      ⟨2, .makeExtended {} [], ⟨0⟩, 1000, ⟨1, true⟩⟩]
    distinct := by decide } }
  net := frames

/-- Both are completed, the later one first. -/
theorem polls_complete_reversed : ∃ events s',
    runAll (step Transport.replies) [.poll ⟨5⟩ ⟨5⟩, .poll ⟨6⟩ ⟨6⟩]
      (twoWaiting [emptyResponse 2, emptyResponse 1]) = .ok (events, s') ∧ s'.inFlight = [] := by
  obtain ⟨events, s', hrun, hreceived⟩ :
    ∃ events s', runAll (step Transport.replies) [.poll ⟨5⟩ ⟨5⟩, .poll ⟨6⟩ ⟨6⟩]
      (twoWaiting [emptyResponse 2, emptyResponse 1]) = .ok (events, s') ∧
      received events = [emptyResponse 2, emptyResponse 1] := ⟨_, _, rfl, rfl⟩
  have hquick :
      InTime [(⟨5⟩, ⟨5⟩), (⟨6⟩, ⟨6⟩)] (twoWaiting [emptyResponse 2, emptyResponse 1]) := by
    unfold InTime
    decide
  refine ⟨events, s', hrun, ?_⟩
  rw [(polls_complete hquick hrun).1, hreceived]
  decide

/-- Two frames are not for one request. -/
def Distinct (frame frame' : List UInt8) : Prop :=
  ∀ pdu pdu', PDU.deserialize (.ofList frame) = .ok (.value pdu) →
    PDU.deserialize (.ofList frame') = .ok (.value pdu') →
    Pipeline.correlationOf pdu ≠ Pipeline.correlationOf pdu'

theorem Distinct.oneFor {frame frame' : List UInt8} (h : Distinct frame frame')
    (r : PendingRequest) :
    OneFor PendingRequest.answerIn r frame frame' := by
  rw [OneFor, or_iff_not_imp_left]
  intro hsome
  obtain ⟨pdu, hpdu⟩ := Option.ne_none_iff_exists'.mp hsome
  refine Option.eq_none_iff_forall_not_mem.mpr fun pdu' hpdu' => ?_
  obtain ⟨hdecode, hid⟩ := PendingRequest.answerIn_eq_some.mp hpdu
  obtain ⟨hdecode', hid'⟩ := PendingRequest.answerIn_eq_some.mp hpdu'
  exact h pdu pdu' hdecode hdecode' (hid.trans hid'.symm)

/-- The order in which responses arrive does not matter: two rows of polls with the same
requests in flight, over any two transports, that get the same frames in any two orders, no
two of them under one id, leave the same requests in flight and have called the same
callbacks with the same responses. -/
theorem arrival_order_free {t t' : PipelineUse τ'} (hsame : s.inFlight = t.inFlight)
    {clocks clocks' : List (Timestamp × Timestamp)} (hquick : InTime clocks s)
    (hquick' : InTime clocks' t) {events : List (PipelineEvent τ)}
    {events' : List (PipelineEvent τ')}
    (hrun : runAll (step T) (clocks.map fun c => .poll c.1 c.2) s = .ok (events, s'))
    (hrun' : runAll (step T') (clocks'.map fun c => .poll c.1 c.2) t = .ok (events', t'))
    (hperm : (received events).Perm (received events'))
    (hdistinct : (received events).Pairwise Distinct) :
    s'.inFlight = t'.inFlight ∧ (invocations events).Perm (invocations events') := by
  have hserves' := polls_serve hquick' hrun'
  rw [← hsame] at hserves'
  exact (polls_serve hquick hrun).perm hserves' hperm fun r _ => hdistinct.imp fun h => h.oneFor r

theorem arrival_order_free_swapped : ∃ events events' s' t',
    runAll (step Transport.replies) [.poll ⟨5⟩ ⟨5⟩, .poll ⟨6⟩ ⟨6⟩]
      (twoWaiting [emptyResponse 1, emptyResponse 2]) = .ok (events, s') ∧
    runAll (step Transport.replies) [.poll ⟨7⟩ ⟨7⟩, .poll ⟨7⟩ ⟨7⟩]
      (twoWaiting [emptyResponse 2, emptyResponse 1]) = .ok (events', t') ∧
    s'.inFlight = t'.inFlight ∧
      (invocations events).Perm (invocations events') := by
  obtain ⟨events, s', hrun, hreceived⟩ :
    ∃ events s', runAll (step Transport.replies) [.poll ⟨5⟩ ⟨5⟩, .poll ⟨6⟩ ⟨6⟩]
      (twoWaiting [emptyResponse 1, emptyResponse 2]) = .ok (events, s') ∧
      received events = [emptyResponse 1, emptyResponse 2] := ⟨_, _, rfl, rfl⟩
  obtain ⟨events', t', hrun', hreceived'⟩ :
    ∃ events t', runAll (step Transport.replies) [.poll ⟨7⟩ ⟨7⟩, .poll ⟨7⟩ ⟨7⟩]
      (twoWaiting [emptyResponse 2, emptyResponse 1]) = .ok (events, t') ∧
      received events = [emptyResponse 2, emptyResponse 1] := ⟨_, _, rfl, rfl⟩
  have hquick :
      InTime [(⟨5⟩, ⟨5⟩), (⟨6⟩, ⟨6⟩)] (twoWaiting [emptyResponse 1, emptyResponse 2]) := by
    unfold InTime
    decide
  have hquick' :
      InTime [(⟨7⟩, ⟨7⟩), (⟨7⟩, ⟨7⟩)] (twoWaiting [emptyResponse 2, emptyResponse 1]) := by
    unfold InTime
    decide
  have hdistinct : (received events).Pairwise Distinct := by
    rw [hreceived, List.pairwise_pair]
    rintro pdu pdu' ⟨⟩ ⟨⟩
    decide
  have hsame : (twoWaiting [emptyResponse 1, emptyResponse 2]).inFlight =
      (twoWaiting [emptyResponse 2, emptyResponse 1]).inFlight := rfl
  exact ⟨events, events', s', t', hrun, hrun', arrival_order_free hsame hquick hquick' hrun hrun'
    (by rw [hreceived, hreceived']; exact .swap _ _ _) hdistinct⟩

end PipelineUse

end ModbusPp

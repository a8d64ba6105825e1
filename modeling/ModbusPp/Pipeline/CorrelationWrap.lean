import ModbusPp.Pipeline.Accounting

/-! Correlation ids come from a 16-bit counter. When it comes round while an old
request is in flight, a submission returns the id of that request and its own is
not tracked; and a PDU without an extended header is taken for a response to the
request under id 0. Without these two accidents an id names one request for as
long as it is in flight. -/

namespace ModbusPp

open Foundation

variable {τ : Type}

/-- The extended header of the PDU has the id. -/
def Carries (pdu : PDU) (id : CorrelationID) : Prop :=
  ∃ hdr, pdu.extHeader = some hdr ∧ hdr.correlationId = id

namespace PipelineUse

variable (T : Transport τ)

/-- A submission that can be accepted finds its id free, and a poll that receives
a PDU without an extended header finds no request under id 0. -/
def IdFree : PipelineCall → PipelineUse τ → Prop
  | .submit request hasCallback timeout now, s =>
    s.pipeline.nextId ∉ s.pipeline.queue.ids ∨ s.pipeline.queue.Full ∨
    ∃ sent net, T.send
      (s.pipeline.nextPending request ⟨s.submissions, hasCallback⟩ timeout now).request.serialize
      s.net = .ok (sent, net) ∧ sent.hasValue = false
  | .poll _ _, s => ∀ pdu, Pipeline.arriving T s.toPipelining = some pdu → pdu.extHeader = none →
    (0 : CorrelationID) ∉ s.pipeline.queue.ids
  | .cancel _, _ => True

end PipelineUse

namespace PipelineEvent

/-- A submission that returned an id put its request into the queue, under that id
and that id alone. -/
def Registers (e : PipelineEvent τ) : Prop :=
  ∀ request hasCallback timeout now id, e.call = .submit request hasCallback timeout now →
    e.outcome = .submitted (.value id) →
    id = e.before.pipeline.nextId ∧ id ∉ e.before.pipeline.queue.ids ∧
    e.entered = [e.before.pipeline.nextPending request ⟨e.before.submissions, hasCallback⟩
      timeout now] ∧
    e.after.inFlight =
      e.before.inFlight ++
        [e.before.pipeline.nextPending request ⟨e.before.submissions, hasCallback⟩ timeout now]

/-- The responses taken for a request carry its id. -/
def OwnResponses (e : PipelineEvent τ) : Prop :=
  ∀ x ∈ e.exits, ∀ pdu, x.2 = .response pdu → Carries pdu x.1.id

/-- The request leaves by its own response, its expiry or its cancel. -/
def OwnReason (e : PipelineEvent τ) (r : PendingRequest) : Exit → Prop
  | .response pdu => Carries pdu r.id
  | x => e.Reason r x

end PipelineEvent

namespace PipelineUse

variable {T : Transport τ} {s s' : PipelineUse τ} {e : PipelineEvent τ}

theorem submit_registers {request : PDU} {hasCallback : Bool}
    {timeout : Milliseconds} {now : Timestamp}
    (hfree : IdFree T (.submit request hasCallback timeout now) s)
    (h : step T (.submit request hasCallback timeout now) s = .ok (e, s')) : e.Registers := by
  obtain ⟨result, hsubmit, -, rfl⟩ := step_submit h
  obtain ⟨sent, queue, hsend, hpipeline, hcases⟩ := Pipeline.submit_cases T hsubmit
  rintro _ _ _ _ id ⟨⟩ ⟨⟩
  rcases hcases with ⟨-, hfail, -⟩ | ⟨-, -, hfail, -⟩ | ⟨hsent, hroom, htaken, -⟩ |
    ⟨-, -, hnew, hvalue, -, hpending⟩
  · contradiction
  · contradiction
  · -- the id was taken, so the submission was not one to be accepted
    rcases hfree with hfree | hfull | ⟨sent', net, hsend', hrefused⟩
    · exact absurd htaken hfree
    · exact absurd hfull hroom
    · rw [hsend, Except.ok.injEq, Prod.mk.injEq] at hsend'
      rw [hsend'.1, hrefused] at hsent
      contradiction
  · have hid := Result.value.inj hvalue
    have hadded : s'.inFlight = s.inFlight ++
        [s.pipeline.nextPending request ⟨s.submissions, hasCallback⟩ timeout now] := by
      rw [inFlight, hpipeline]
      exact hpending
    refine ⟨hid, hid ▸ hnew, ?_, hadded⟩
    rw [PipelineEvent.entered, hadded]
    exact filter_new fun hmem => hnew (RequestQueue.mem_ids.mpr ⟨_, hmem, rfl⟩)

theorem poll_ownResponses {matchedAt sweptAt : Timestamp}
    (hfree : IdFree T (.poll matchedAt sweptAt) s)
    (h : step T (.poll matchedAt sweptAt) s = .ok (e, s')) : e.OwnResponses := by
  obtain ⟨log, hpoll, -, rfl⟩ := step_poll h
  rintro ⟨r, x⟩ hx pdu hresponse
  obtain rfl : x = .response pdu := hresponse
  rcases Pipeline.poll_cases T hpoll with ⟨-, hnone, hexpired, -⟩ |
    ⟨frame, pdu', r', -, -, harriving, hcompletes⟩
  · simp [PipelineEvent.exits, PipelineEvent.log, hnone, hexpired] at hx
  · simp only [PipelineEvent.exits, PipelineEvent.log, hcompletes.answered, Option.toList_some,
      List.map_cons, List.map_nil, List.mem_append, List.mem_singleton, List.mem_map, Prod.mk.injEq,
      reduceCtorEq, and_false, exists_false, or_false, Exit.response.injEq] at hx
    obtain ⟨rfl, rfl⟩ := hx
    obtain ⟨hmem, hid⟩ := RequestQueue.find_eq_some.mp hcompletes.found
    cases hext : pdu.extHeader with
    | none =>
      have hzero : r.id = 0 := by rw [hid, Pipeline.correlationOf, hext]
      exact absurd (RequestQueue.mem_ids.mpr ⟨r, hmem, hzero⟩) (hfree pdu harriving hext)
    | some hdr => exact ⟨hdr, hext, by rw [hid, Pipeline.correlationOf, hext]⟩

theorem step_idFree {call : PipelineCall} (hfree : IdFree T call s)
    (h : step T call s = .ok (e, s')) :
    e.Registers ∧ e.OwnResponses := by
  cases call with
  | submit request hasCallback timeout now =>
    refine ⟨submit_registers hfree h, ?_⟩
    obtain ⟨result, -, -, rfl⟩ := step_submit h
    exact nofun
  | poll matchedAt sweptAt =>
    refine ⟨?_, poll_ownResponses hfree h⟩
    obtain ⟨log, -, -, rfl⟩ := step_poll h
    exact nofun
  | cancel id =>
    obtain ⟨-, -, rfl⟩ := step_cancel h
    refine ⟨nofun, ?_⟩
    rintro x hx pdu hresponse
    obtain ⟨r, -, rfl⟩ := List.mem_map.mp hx
    contradiction

/-- In every run in which the counter meets no request in flight, an accepted
submission gets an id of its own and adds one request. The request stays under
that id until its response, its expiry or its cancel, and its callback is given
no response but one that carries the id. -/
theorem submission_registered {config : PipelineConfig} {net : τ} {calls : List PipelineCall}
    {earlier later : List (PipelineEvent τ)} {last : PipelineUse τ}
    {request : PDU} {hasCallback : Bool} {timeout : Milliseconds} {now : Timestamp}
    {id : CorrelationID} (hfree : Guarded (step T) (IdFree T) calls (start config net))
    (hrun : runAll (step T) calls (start config net) = .ok (earlier ++ e :: later, last))
    (hcall : e.call = .submit request hasCallback timeout now)
    (hid : e.outcome = .submitted (.value id)) :
    id ∉ e.before.pipeline.queue.ids ∧
    e.after.pipeline.inFlightCount = e.before.pipeline.inFlightCount + 1 ∧
    ∃ r ∈ e.after.inFlight,
      r = e.before.pipeline.nextPending request ⟨e.before.submissions, hasCallback⟩ timeout now ∧
      r.id = id ∧
      (r ∈ last.inFlight ∨ ∃ e' ∈ later, ∃ x, (r, x) ∈ e'.exits ∧ e'.OwnReason r x) ∧
      ∀ e' ∈ earlier ++ e :: later, ∀ i ∈ e'.log.invoked,
        i.callback.submission = r.callback.submission →
        ∀ pdu, i.result = .value pdu → Carries pdu id := by
  have hevents := run_events hrun
  have hfacts := (runAll_keeps_guarded (fun _ => True) _
    (fun call s e s' _ hfree h => ⟨trivial, step_idFree hfree h⟩) calls trivial hfree hrun).2
  have he : e ∈ earlier ++ e :: later := by simp
  obtain ⟨rfl, hnew, hentered, hadded⟩ := (hfacts e he).1 _ _ _ _ _ hcall hid
  refine ⟨hnew, ?_, _, by rw [hadded]; simp, rfl, rfl, ?_, ?_⟩
  · change e.after.inFlight.length = e.before.inFlight.length + 1
    rw [hadded, List.length_append, List.length_singleton]
  · obtain ⟨calls', hlater⟩ := run_after hrun
    have hmem : e.before.pipeline.nextPending request ⟨e.before.submissions, hasCallback⟩
      timeout now ∈
        e.after.inFlight := by
      rw [hadded]
      simp
    rcases (inFlightLedger T).run_accounted hlater (List.mem_append_left _ hmem) with ⟨e', he',
      hleft⟩ | hstill
    · obtain ⟨⟨r, x⟩, hx, rfl⟩ := List.mem_map.mp hleft
      have he'_mem : e' ∈ earlier ++ e :: later := by simp [he']
      refine .inr ⟨e', he', x, hx, ?_⟩
      cases x with
      | response pdu => exact (hfacts e' he'_mem).2 _ hx pdu rfl
      | expiry => exact ((step_lawful (hevents e' he'_mem)).reason _ hx).2
      | cancel => exact ((step_lawful (hevents e' he'_mem)).reason _ hx).2
    · exact .inl hstill
  · intro e' he' i hi hsame pdu hvalue
    obtain ⟨x, hx, hix⟩ := exit_of_own_invocation hrun he
      (by rw [hentered]; exact List.mem_singleton_self _) he' hi hsame
    exact (hfacts e' he').2 _ hx pdu (value_invocations (x := (_, x)) hix hvalue)

/-- One request whose response comes in at once. -/
def oneAnswered : Loopback :=
  { Loopback.connectedPair with toClient := [[0x6E, 1, 0, 0, 0, 1, 1, 0, 0]] }

theorem submission_registered_answered : ∃ e e' last,
    runAll (step Loopback.clientEnd) [.submit (.makeExtended {} []) true 0 ⟨0⟩, .poll ⟨5⟩ ⟨5⟩]
      (start {} oneAnswered) = .ok ([e, e'], last) ∧
    e.outcome = .submitted (.value 1) ∧ last.inFlight = [] ∧
    ∃ r ∈ e.after.inFlight, r.id = 1 ∧
      (r ∈ last.inFlight ∨ ∃ e₁ ∈ [e'], ∃ x, (r, x) ∈ e₁.exits ∧ e₁.OwnReason r x) := by
  have hfree : Guarded (step Loopback.clientEnd) (IdFree Loopback.clientEnd)
      [.submit (.makeExtended {} []) true 0 ⟨0⟩, .poll ⟨5⟩ ⟨5⟩] (start {} oneAnswered) := by
    refine ⟨.inl (by decide), ?_⟩
    rintro o s ⟨⟩
    refine ⟨?_, fun _ _ _ => trivial⟩
    rintro pdu ⟨⟩ ⟨⟩
  obtain ⟨e, e', last, hrun, hcall, hid, hflight⟩ : ∃ e e' last,
    runAll (step Loopback.clientEnd) [.submit (.makeExtended {} []) true 0 ⟨0⟩, .poll ⟨5⟩ ⟨5⟩]
      (start {} oneAnswered) = .ok ([e, e'], last) ∧
      e.call = .submit (.makeExtended {} []) true 0 ⟨0⟩ ∧
      e.outcome = .submitted (.value 1) ∧ last.inFlight = [] := ⟨_, _, _, rfl, rfl, rfl, rfl⟩
  have hsplit :
    runAll (step Loopback.clientEnd) [.submit (.makeExtended {} []) true 0 ⟨0⟩, .poll ⟨5⟩ ⟨5⟩]
      (start {} oneAnswered) = .ok ([] ++ e :: [e'], last) := hrun
  obtain ⟨-, -, r, hr, -, hrid, hstays, -⟩ := submission_registered hfree hsplit hcall hid
  exact ⟨e, e', last, hrun, hid, hflight, r, hr, hrid, hstays⟩

/-- A link that is down for the sends whose entry is `true`. -/
def flaky (drops : List Bool) (delivered : List (List UInt8)) : Loopback :=
  { Loopback.connectedPair with client := { connected := true, drops }, toServer := delivered }

def submission : PipelineCall := .submit (.makeExtended {} []) true 0 ⟨0⟩

theorem step_refused (p : Pipeline) (drops : List Bool) (delivered : List (List UInt8)) (n : ℕ) :
    ∃ e, step Loopback.clientEnd submission ⟨⟨p, flaky (true :: drops) delivered⟩, n⟩ =
      .ok (e, ⟨⟨p.advance, flaky drops delivered⟩, n + 1⟩) := ⟨_, rfl⟩

theorem run_refused (k : ℕ) (p : Pipeline) (drops : List Bool)
    (delivered : List (List UInt8)) (n : ℕ) :
    ∃ events, runAll (step Loopback.clientEnd) (List.replicate k submission)
        ⟨⟨p, flaky (List.replicate k true ++ drops) delivered⟩, n⟩ =
      .ok (events,
        ⟨⟨{ p with nextId := p.nextId + UInt16.ofNat k }, flaky drops delivered⟩, n + k⟩) := by
  induction k generalizing p n with
  | zero => exact ⟨[], by simp [runAll]⟩
  | succ k ih =>
    obtain ⟨e, hfirst⟩ := step_refused p (List.replicate k true ++ drops) delivered n
    obtain ⟨events, hothers⟩ := ih p.advance (n + 1)
    refine ⟨e :: events, runAll_cons.mpr ⟨e, _, events, hfirst, ?_, rfl⟩⟩
    rw [hothers, Pipeline.advance, Nat.add_comm k 1,
      UInt16.ofNat_add, ← UInt16.add_assoc, ← Nat.add_assoc]
    rfl

theorem step_taken (p : Pipeline) (delivered : List (List UInt8)) (n : ℕ)
    (htaken : p.nextId ∈ p.queue.ids) (hroom : ¬p.queue.Full) :
    ∃ e s', step Loopback.clientEnd submission ⟨⟨p, flaky [false] delivered⟩, n⟩ = .ok (e, s') ∧
      e.outcome = .submitted (.value p.nextId) ∧ e.before.pipeline.queue = p.queue ∧
      e.after.pipeline.queue = p.queue := by
  have hinsert (r : PendingRequest) (hr : r.id = p.nextId) :
      p.queue.insert r = (true, p.queue) := by
    rw [RequestQueue.insert, if_neg hroom, RequestQueue.emplace, dif_pos (hr ▸ htaken)]
  obtain ⟨net, hsubmit⟩ :
    ∃ net, Pipeline.submit Loopback.clientEnd (.makeExtended {} []) ⟨n, true⟩ 0 ⟨0⟩
      ⟨p, flaky [false] delivered⟩ = .ok (.value p.nextId, ⟨p.advance, net⟩) := by
    rw [Pipeline.submit, hinsert _ rfl]
    exact ⟨_, rfl⟩
  simp only [step, submission, hsubmit, ok_bind, pure_eq_ok]
  exact ⟨_, _, rfl, rfl, rfl, rfl⟩

/-- The first submission goes out and stays unanswered; the link is down for the
next 65535; the one after them gets the id of the first. -/
theorem submission_id_taken : ∃ events e last,
    runAll (step Loopback.clientEnd)
      (submission :: (List.replicate 65535 submission ++ [submission]))
      (start {} (flaky (false :: (List.replicate 65535 true ++ [false])) [])) =
        .ok (events ++ [e], last) ∧
    e.outcome = .submitted (.value 1) ∧ 1 ∈ e.before.pipeline.queue.ids ∧
    e.after.pipeline.inFlightCount = e.before.pipeline.inFlightCount := by
  obtain ⟨e₁, p, delivered, hfirst, hnext, hids, hroom⟩ :
    ∃ e₁ p delivered, step Loopback.clientEnd submission
        (start {} (flaky (false :: (List.replicate 65535 true ++ [false])) [])) =
      .ok (e₁, ⟨⟨p, flaky (List.replicate 65535 true ++ [false]) delivered⟩, 1⟩) ∧
      p.nextId = 2 ∧ p.queue.ids = [1] ∧ ¬p.queue.Full := ⟨_, _, _, rfl, rfl, rfl, by decide⟩
  obtain ⟨events, hrefused⟩ := run_refused 65535 p [false] delivered 1
  have hwrap : p.nextId + UInt16.ofNat 65535 = 1 := by rw [hnext]; decide
  rw [hwrap] at hrefused
  have htaken : (1 : CorrelationID) ∈ p.queue.ids := by rw [hids]; decide
  obtain ⟨e, last, hlast, hid, hbefore, hafter⟩ :=
    step_taken { p with nextId := 1 } delivered (1 + 65535) htaken hroom
  have hcount : e.after.pipeline.inFlightCount = e.before.pipeline.inFlightCount := by
    rw [Pipeline.inFlightCount, hafter, Pipeline.inFlightCount, hbefore]
  refine ⟨e₁ :: events, e, last, ?_, hid, by rw [hbefore]; exact htaken, hcount⟩
  exact runAll_cons.mpr ⟨e₁, _, events ++ [e], hfirst,
    runAll_append hrefused (runAll_cons.mpr ⟨e, last, [], hlast, rfl, rfl⟩), rfl⟩

end PipelineUse

end ModbusPp

import ModbusPp.Pipeline.Accounting

/-! Requests whose timeout has elapsed. The sweep that removes them is the last
thing `poll` does, after the early exits: it is reached only when the frame that
was received has a request, and not when nothing is received at all. -/

namespace ModbusPp

open Foundation

variable {τ : Type}

namespace PipelineUse

/-- The next `receive` brings in a response to a request in flight. -/
def Matched (T : Transport τ) (s : PipelineUse τ) : Prop :=
  ∃ pdu, Pipeline.arriving T s.toPipelining = some pdu ∧
    Pipeline.correlationOf pdu ∈ s.pipeline.queue.ids

end PipelineUse

/-- The poll has removed every request that was overdue when it began and is so
when it returns. In the history up to the poll, the callback of each was invoked
once: with `TimeoutExpired`, or with the response that the poll received. -/
def PipelineEvent.CleansUp (began returned : Timestamp) (past : List (PipelineEvent τ))
    (e : PipelineEvent τ) : Prop :=
  ∀ r ∈ e.before.inFlight, r.Overdue began → r.Overdue returned →
    r ∉ e.after.inFlight ∧
    (((past ++ [e]).flatMap (·.log.invoked)).filter (·.callback = r.callback) =
        r.callback.invoke (.fail .timeoutExpired) ∨
      ∃ pdu, e.Reason r (.response pdu) ∧
        ((past ++ [e]).flatMap (·.log.invoked)).filter (·.callback = r.callback) =
          r.callback.invoke (.value pdu))

namespace PipelineUse

variable {T : Transport τ} {config : PipelineConfig} {net : τ} {calls : List PipelineCall}
  {events : List (PipelineEvent τ)} {s s' : PipelineUse τ} {e : PipelineEvent τ}
    {matchedAt returned : Timestamp}

theorem invocations_filter_self (r : PendingRequest) (x : Exit) :
    (x.invocations r).filter (·.callback = r.callback) = x.invocations r :=
  List.filter_eq_self.mpr fun _ hi => decide_eq_true (mem_invocations (x := (r, x)) hi)

theorem invocations_filter {exits : List (PendingRequest × Exit)}
    (hnodup : (exits.map (·.1.callback.submission)).Nodup) {r : PendingRequest}
    {x : Exit} (hx : (r, x) ∈ exits) :
    (exits.flatMap fun y => y.2.invocations y.1).filter (·.callback = r.callback) =
      x.invocations r := by
  have hother {r' : PendingRequest} (x' : Exit)
    (hne : r'.callback.submission ≠ r.callback.submission) :
      (x'.invocations r').filter (·.callback = r.callback) = [] := by
    refine List.filter_eq_nil_iff.mpr fun i hi hsame => hne ?_
    rw [← mem_invocations (x := (r', x')) hi, of_decide_eq_true hsame]
  induction exits with
  | nil => contradiction
  | cons y exits ih =>
    obtain ⟨hfirst, hrest⟩ := List.nodup_cons.mp hnodup
    rw [List.flatMap_cons, List.filter_append]
    rcases List.mem_cons.mp hx with heq | hlater
    · have htail :
          (exits.flatMap fun y => y.2.invocations y.1).filter (·.callback = r.callback) = [] := by
        rw [List.filter_flatMap]
        refine List.flatMap_eq_nil_iff.mpr fun z hz => hother z.2 fun hsame => hfirst ?_
        rw [← heq]
        exact List.mem_map.mpr ⟨z, hz, hsame⟩
      rw [htail, ← heq, invocations_filter_self, List.append_nil]
    · have hne : y.1.callback.submission ≠ r.callback.submission :=
        fun hsame => hfirst (List.mem_map.mpr ⟨(r, x), hlater, hsame.symm⟩)
      rw [hother y.2 hne, ih hrest hlater, List.nil_append]

/-- A request that leaves in the last event of a run has had, in the whole run, the
invocations of that exit. -/
theorem invoked_by_exit (hrun : runAll (step T) calls (start config net) = .ok (events, s))
    {call : PipelineCall} (hstep : step T call s = .ok (e, s')) {r : PendingRequest}
    {x : Exit} (hx : (r, x) ∈ e.exits) :
    ((events ++ [e]).flatMap (·.log.invoked)).filter (·.callback = r.callback) =
      x.invocations r := by
  have hlast : runAll (step T) [call] s = .ok ([e], s') :=
    runAll_cons.mpr ⟨e, s', [], hstep, rfl, rfl⟩
  have hall := runAll_append hrun hlast
  have hinvoked : (events ++ [e]).flatMap (·.log.invoked) =
      ((events ++ [e]).flatMap PipelineEvent.exits).flatMap fun y => y.2.invocations y.1 := by
    rw [List.flatMap_assoc]
    exact List.flatMap_congr fun e' he' => (step_lawful (run_events hall e' he')).invoked
  rw [hinvoked]
  exact invocations_filter (run_exits_nodup hall) (List.mem_flatMap.mpr ⟨e, by simp, hx⟩)

/-- In every reachable state, a poll cleans up exactly if it receives a response to
a request in flight or nothing is overdue. -/
theorem cleansUp_iff (began : Timestamp)
    (hrun : runAll (step T) calls (start config net) = .ok (events, s))
    (hpoll : step T (.poll matchedAt returned) s = .ok (e, s')) :
    e.CleansUp began returned events ↔
      Matched T s ∨ ∀ r ∈ s.inFlight, ¬(r.Overdue began ∧ r.Overdue returned) := by
  obtain ⟨log, hlog, -, rfl⟩ := step_poll hpoll
  rcases Pipeline.poll_cases T hlog with
    ⟨hsame, -, -, -, hunmatched⟩ | ⟨frame, pdu, r₀, hframe, hdecode, harriving, hcompletes⟩
  · -- an early exit: the queue is left as it was
    constructor
    · intro hclean
      refine .inr fun r hr hoverdue => (hclean r hr hoverdue.1 hoverdue.2).1 ?_
      rw [inFlight, hsame]
      exact hr
    · rintro (⟨pdu, harriving, hmem⟩ | hnone) r hr hbegan hreturned
      · exact absurd hmem (hunmatched pdu harriving)
      · exact absurd ⟨hbegan, hreturned⟩ (hnone r hr)
  · obtain ⟨hmem₀, hid₀⟩ := RequestQueue.find_eq_some.mp hcompletes.found
    refine iff_of_true ?_ (.inl ⟨pdu, harriving, RequestQueue.mem_ids.mpr ⟨r₀, hmem₀, hid₀⟩⟩)
    intro r hr _ hreturned
    by_cases heq : r = r₀
    · subst heq
      refine ⟨?_, .inr
        ⟨pdu, ⟨frame, hframe, hdecode, hid₀⟩, invoked_by_exit hrun hpoll (x := .response pdu) ?_⟩⟩
      · rw [inFlight, hcompletes.kept, List.mem_filter, RequestQueue.mem_erase]
        exact fun h => h.1.2 rfl
      · simp [PipelineEvent.exits, PipelineEvent.log, hcompletes.answered]
    · have hkept : r ∈ (s.pipeline.queue.erase r₀.id).pending :=
        RequestQueue.mem_erase.mpr ⟨hr, fun hid => heq (RequestQueue.eq_of_id_eq hr hmem₀ hid)⟩
      refine ⟨?_, .inl (invoked_by_exit hrun hpoll (x := .expiry) ?_)⟩
      · rw [inFlight, hcompletes.kept, List.mem_filter]
        exact fun h => of_decide_eq_true h.2 hreturned
      · simp [PipelineEvent.exits, PipelineEvent.log, hcompletes.expired, hkept, hreturned]

/-- Two requests, polled for a response to the second when both are overdue. -/
def bothOverdue : List PipelineCall :=
  [.submit (.makeStandard .readHoldingRegisters [0, 0, 0, 1]) true 0 ⟨0⟩,
    .submit (.makeStandard .readHoldingRegisters [0, 1, 0, 1]) true 0 ⟨0⟩]

theorem cleansUp_matched : ∃ events s e s',
    runAll (step Loopback.clientEnd) bothOverdue (start {} secondAnswered) = .ok (events, s) ∧
    step Loopback.clientEnd (.poll ⟨2000000⟩ ⟨2000000⟩) s = .ok (e, s') ∧
    (∀ r ∈ s.inFlight, r.Overdue ⟨2000000⟩) ∧ e.CleansUp ⟨2000000⟩ ⟨2000000⟩ events := by
  obtain ⟨events, s, e, s', hrun, hpoll, hoverdue, hmatched⟩ : ∃ events s e s',
      runAll (step Loopback.clientEnd) bothOverdue (start {} secondAnswered) = .ok (events, s) ∧
      step Loopback.clientEnd (.poll ⟨2000000⟩ ⟨2000000⟩) s = .ok (e, s') ∧
      (∀ r ∈ s.inFlight, r.Overdue ⟨2000000⟩) ∧ Matched Loopback.clientEnd s :=
    ⟨_, _, _, _, rfl, rfl, by decide, _, rfl, by decide⟩
  exact ⟨events, s, e, s', hrun, hpoll, hoverdue,
    (cleansUp_iff ⟨2000000⟩ hrun hpoll).mpr (.inl hmatched)⟩

/-- Nothing is received: the request is overdue and stays in flight. -/
theorem overdue_stays : ∃ e e' last,
    runAll (step Loopback.clientEnd)
        [.submit (.makeStandard .readHoldingRegisters [0, 0, 0, 1]) true 0 ⟨0⟩,
          .poll ⟨2000000⟩ ⟨2000000⟩]
        (start {} Loopback.connectedPair) = .ok ([e, e'], last) ∧
      (∀ r ∈ e'.before.inFlight, r.Overdue ⟨2000000⟩) ∧ e'.before.inFlight.length = 1 ∧
      last.inFlight = e'.before.inFlight ∧ e'.log.invoked = [] :=
  ⟨_, _, _, rfl, by decide, rfl, rfl, rfl⟩

end PipelineUse

end ModbusPp

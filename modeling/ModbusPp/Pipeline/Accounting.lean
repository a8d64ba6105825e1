import ModbusPp.Core.PduRoundTrip
import ModbusPp.Pipeline.PipelineRuns
import ModbusPp.Transport.Loopback

/-! The books of a run of a pipeline: every request that was queued is in flight
or has left, once, for one reason, and the callbacks invoked are exactly those
that the exits call for. -/

namespace ModbusPp

open Foundation
open List (Sublist)

variable {τ : Type}

def Exit.isResponse : Exit → Bool
  | .response _ => true
  | _ => false

namespace PipelineEvent

/-- What makes the event take the request out of the queue. -/
def Reason (e : PipelineEvent τ) (r : PendingRequest) : Exit → Prop
  | .response pdu => ∃ frame, e.log.frame = some frame ∧
      PDU.deserialize (.ofList frame) = .ok (.value pdu) ∧ r.id = Pipeline.correlationOf pdu
  | .expiry => ∃ matchedAt sweptAt, e.call = .poll matchedAt sweptAt ∧ r.Overdue sweptAt
  | .cancel => e.call = .cancel r.id ∧ e.outcome = .cancelled true

/-- The books of one event. -/
structure Lawful (e : PipelineEvent τ) : Prop where
  reason : ∀ x ∈ e.exits, x.1 ∈ e.before.inFlight ∧ e.Reason x.1 x.2
  responses : e.exits.countP (·.2.isResponse) ≤ 1
  invoked : e.log.invoked = e.exits.flatMap fun x => x.2.invocations x.1
  counted : e.after.pipeline.totalCompleted =
    e.before.pipeline.totalCompleted + UInt64.ofNat (e.exits.countP (·.2.isResponse))

end PipelineEvent

namespace PipelineUse

variable {T : Transport τ} {s s' : PipelineUse τ} {e : PipelineEvent τ}

theorem expiries_not_responses (expired : List PendingRequest) :
    (expired.map (·, Exit.expiry)).countP (·.2.isResponse) = 0 := by
  simp [List.countP_map, List.countP_eq_zero, Exit.isResponse]

theorem lawful_poll {matchedAt sweptAt : Timestamp}
    (h : step T (.poll matchedAt sweptAt) s = .ok (e, s')) :
    e.Lawful := by
  obtain ⟨log, hpoll, -, rfl⟩ := step_poll h
  rcases Pipeline.poll_cases T hpoll with
    ⟨hsame, hnone, hexpired, hinvoked, -⟩ | ⟨frame, pdu, r, hframe, hdecode, -, hcompletes⟩
  · have hexits : (⟨.poll matchedAt sweptAt, .polled log, s, s'⟩ : PipelineEvent τ).exits = [] := by
      simp [PipelineEvent.exits, PipelineEvent.log, hnone, hexpired]
    refine ⟨by simp [hexits], by simp [hexits], by rw [hexits]; exact hinvoked, ?_⟩
    simp [hexits, hsame]
  · have hexits : (⟨.poll matchedAt sweptAt, .polled log, s, s'⟩ : PipelineEvent τ).exits =
        (r, .response pdu) :: log.expired.map (·, .expiry) := by
      simp [PipelineEvent.exits, PipelineEvent.log, hcompletes.answered]
    obtain ⟨hmem, hid⟩ := RequestQueue.find_eq_some.mp hcompletes.found
    have hcount : (⟨.poll matchedAt sweptAt, .polled log, s, s'⟩ : PipelineEvent τ).exits.countP
        (·.2.isResponse) = 1 := by
      rw [hexits, List.countP_cons, expiries_not_responses]
      rfl
    constructor
    · rw [hexits]
      rintro ⟨r', x⟩ hx
      rcases List.mem_cons.mp hx with heq | hx
      · cases heq
        exact ⟨hmem, frame, hframe, hdecode, hid⟩
      · obtain ⟨r'', hr'', heq⟩ := List.mem_map.mp hx
        cases heq
        rw [hcompletes.expired, List.mem_filter, decide_eq_true_eq, RequestQueue.mem_erase] at hr''
        exact ⟨hr''.1.1, matchedAt, sweptAt, rfl, hr''.2⟩
    · exact hcount.le
    · rw [hexits, List.flatMap_cons, List.flatMap_map]
      exact hcompletes.invoked
    · rw [hcount]
      exact hcompletes.counted

theorem step_lawful {call : PipelineCall} (h : step T call s = .ok (e, s')) : e.Lawful := by
  cases call with
  | submit request hasCallback timeout now =>
    obtain ⟨result, hsubmit, -, rfl⟩ := step_submit h
    obtain ⟨sent, queue, -, hpipeline, -⟩ := Pipeline.submit_cases T hsubmit
    exact ⟨nofun, Nat.zero_le 1, rfl, by rw [hpipeline]; exact (UInt64.add_zero _).symm⟩
  | poll matchedAt sweptAt => exact lawful_poll h
  | cancel id =>
    obtain ⟨hpipeline, -, rfl⟩ := step_cancel h
    cases hfind : s.pipeline.queue.find id with
    | none =>
      refine ⟨?_, ?_, ?_, ?_⟩ <;> simp [PipelineEvent.exits, PipelineEvent.log, hfind, hpipeline]
    | some r =>
      obtain ⟨hmem, rfl⟩ := RequestQueue.find_eq_some.mp hfind
      have hin : r.id ∈ s.pipeline.queue.ids := RequestQueue.mem_ids.mpr ⟨r, hmem, rfl⟩
      refine ⟨?_, ?_, ?_, ?_⟩ <;>
        simp [PipelineEvent.exits, PipelineEvent.log, PipelineEvent.Reason, Exit.isResponse,
          Exit.invocations, hfind, hpipeline, hin, inFlight, hmem]

/-- The queue has its limit, and keeps to it. -/
def Bounded (limit : ℕ) (s : PipelineUse τ) : Prop :=
  s.pipeline.queue.maxSize = limit ∧ (0 < limit → s.pipeline.inFlightCount ≤ limit)

theorem bounded_of_left {limit : ℕ} (hbounded : Bounded limit s)
    (hperm : s.inFlight.Perm (e.left ++ s'.inFlight))
    (hsize : s'.pipeline.queue.maxSize = s.pipeline.queue.maxSize) : Bounded limit s' := by
  refine ⟨hsize.trans hbounded.1, fun hpos => ?_⟩
  have hlen := hperm.length_eq
  have hbefore : s.inFlight.length ≤ limit := hbounded.2 hpos
  rw [List.length_append] at hlen
  change s'.inFlight.length ≤ limit
  omega

theorem step_bounded {limit : ℕ} {call : PipelineCall} (hbounded : Bounded limit s)
    (h : step T call s = .ok (e, s')) :
    Bounded limit s' := by
  cases call with
  | submit request hasCallback timeout now =>
    obtain ⟨result, hsubmit, -, rfl⟩ := step_submit h
    obtain ⟨sent, queue, -, hpipeline, hcases⟩ := Pipeline.submit_cases T hsubmit
    rcases hcases with ⟨-, -, rfl⟩ | ⟨-, -, -, rfl⟩ | ⟨-, -, -, -, rfl⟩ |
      ⟨-, hroom, -, -, hsize, hpending⟩
    iterate 3
      simp only [Bounded, Pipeline.inFlightCount, hpipeline]
      exact hbounded
    -- an entry is only made while there is room for it
    simp only [Bounded, Pipeline.inFlightCount, hpipeline, hsize, RequestQueue.size, hpending,
      List.length_append, List.length_singleton]
    refine ⟨hbounded.1, fun hpos => ?_⟩
    rw [RequestQueue.Full, hbounded.1, RequestQueue.size] at hroom
    omega
  | poll matchedAt sweptAt =>
    refine bounded_of_left hbounded (left_poll h).2 ?_
    obtain ⟨log, hpoll, -, -⟩ := step_poll h
    rcases Pipeline.poll_cases T hpoll with ⟨hsame, -⟩ | ⟨frame, pdu, r, -, -, -, hcompletes⟩
    · rw [hsame]
    · exact hcompletes.maxSize_eq
  | cancel id =>
    refine bounded_of_left hbounded (left_cancel h).2 ?_
    rw [(step_cancel h).1]
    rfl

end PipelineUse

/-- The books of a run: its events, and the state it ends in. -/
structure Accounted (config : PipelineConfig) (events : List (PipelineEvent τ))
    (last : PipelineUse τ) : Prop where
  /-- A frame is handed to at most one callback, that of the request in flight with its id. -/
  handed : ∀ e ∈ events, (e.log.invoked.filter (·.result.hasValue)).length ≤ 1 ∧
    ∀ i ∈ e.log.invoked, ∀ pdu, i.result = .value pdu →
      ∃ r ∈ e.before.inFlight, i.callback = r.callback ∧ e.Reason r (.response pdu)
  /-- A request that was queued is in flight, or has left in exactly one way. -/
  settled : ∀ e ∈ events, ∀ r ∈ e.entered,
    (r ∈ last.inFlight ∧ ∀ x, (r, x) ∉ events.flatMap PipelineEvent.exits) ∨
    (r ∉ last.inFlight ∧ ∃! x, (r, x) ∈ events.flatMap PipelineEvent.exits)
  /-- No request leaves twice. -/
  once : ((events.flatMap PipelineEvent.left ++ last.inFlight).map (·.callback.submission)).Nodup
  reason : ∀ e ∈ events, ∀ x ∈ e.exits, x.1 ∈ e.before.inFlight ∧ e.Reason x.1 x.2
  /-- The callbacks invoked in an event are those of the requests that leave in it. -/
  invoked : ∀ e ∈ events, e.log.invoked = e.exits.flatMap fun x => x.2.invocations x.1
  invoked_once : ((events.flatMap (·.log.invoked)).map (·.callback.submission)).Nodup
  /-- A request that was cancelled never has its callback invoked. -/
  cancelled : ∀ e ∈ events, ∀ id, e.call = .cancel id → e.outcome = .cancelled true →
    ∃ r ∈ e.before.inFlight, r.id = id ∧ r ∉ e.after.inFlight ∧
      ∀ e' ∈ events, ∀ i ∈ e'.log.invoked, i.callback.submission ≠ r.callback.submission
  bounded : 0 < config.maxInFlight → ∀ e ∈ events,
    e.after.pipeline.inFlightCount ≤ config.maxInFlight.toNat
  counted : last.pipeline.completedCount =
    UInt64.ofNat ((events.flatMap PipelineEvent.exits).countP (·.2.isResponse))

namespace PipelineUse

section Run

variable {T : Transport τ} {config : PipelineConfig} {net : τ} {calls : List PipelineCall}
  {events : List (PipelineEvent τ)} {last : PipelineUse τ}

theorem flatMap_left (events : List (PipelineEvent τ)) :
    events.flatMap PipelineEvent.left = (events.flatMap PipelineEvent.exits).map Prod.fst := by
  rw [List.map_flatMap]
  rfl

theorem run_once (hrun : runAll (step T) calls (start config net) = .ok (events, last)) :
    ((events.flatMap PipelineEvent.left ++ last.inFlight).map (·.callback.submission)).Nodup :=
  (inFlightLedger T).run_once rfl hrun

theorem run_exits_nodup (hrun : runAll (step T) calls (start config net) = .ok (events, last)) :
    ((events.flatMap PipelineEvent.exits).map (·.1.callback.submission)).Nodup := by
  have hnodup := run_once hrun
  rw [List.map_append, flatMap_left, List.map_map] at hnodup
  exact hnodup.of_append_left

theorem exit_unique (hrun : runAll (step T) calls (start config net) = .ok (events, last))
    {x y : PendingRequest × Exit} (hx : x ∈ events.flatMap PipelineEvent.exits)
    (hy : y ∈ events.flatMap PipelineEvent.exits)
    (h : x.1.callback.submission = y.1.callback.submission) : x = y :=
  List.inj_on_of_nodup_map (run_exits_nodup hrun) hx hy h

theorem exit_not_inFlight (hrun : runAll (step T) calls (start config net) = .ok (events, last))
    {x : PendingRequest × Exit} (hx : x ∈ events.flatMap PipelineEvent.exits) :
    x.1 ∉ last.inFlight := by
  have hnodup := run_once hrun
  rw [List.map_append, flatMap_left] at hnodup
  intro hstill
  exact (List.disjoint_of_nodup_append hnodup)
    (List.mem_map_of_mem (List.mem_map_of_mem hx)) (List.mem_map_of_mem hstill)

theorem run_settled (hrun : runAll (step T) calls (start config net) = .ok (events, last))
    {e : PipelineEvent τ} (he : e ∈ events) {r : PendingRequest} (hr : r ∈ e.entered) :
    (r ∈ last.inFlight ∧ ∀ x, (r, x) ∉ events.flatMap PipelineEvent.exits) ∨
    (r ∉ last.inFlight ∧ ∃! x, (r, x) ∈ events.flatMap PipelineEvent.exits) := by
  have hmem := List.mem_append_right (start config net).inFlight (List.mem_flatMap.mpr ⟨e, he, hr⟩)
  rcases (inFlightLedger T).run_accounted hrun hmem with ⟨e', he', hleft⟩ | hstill
  · obtain ⟨⟨r', x⟩, hx, rfl⟩ := List.mem_map.mp hleft
    have hexit := List.mem_flatMap.mpr ⟨e', he', hx⟩
    refine .inr ⟨exit_not_inFlight hrun hexit, x, hexit, fun y hy => ?_⟩
    exact congrArg Prod.snd (exit_unique hrun hy hexit rfl)
  · exact .inl ⟨hstill, fun x hx => exit_not_inFlight hrun hx hstill⟩

theorem invocations_sublist (x : PendingRequest × Exit) :
    Sublist ((x.2.invocations x.1).map (·.callback.submission)) [x.1.callback.submission] := by
  obtain ⟨r, _ | _ | _⟩ :=
    x <;> simp only [Exit.invocations, Callback.invoke] <;> (try split_ifs) <;> simp

theorem run_invoked_once (hrun : runAll (step T) calls (start config net) = .ok (events, last)) :
    ((events.flatMap (·.log.invoked)).map (·.callback.submission)).Nodup := by
  refine (run_exits_nodup hrun).sublist ?_
  rw [List.map_flatMap, List.map_flatMap]
  refine List.Sublist.flatMap_right events fun e he => ?_
  rw [(step_lawful (run_events hrun e he)).invoked, List.map_flatMap, List.map_eq_flatMap]
  exact List.Sublist.flatMap_right e.exits fun x _ => invocations_sublist x

theorem exit_of_invoked {e : PipelineEvent τ} (he : e.Lawful) {i : Invocation}
    (hi : i ∈ e.log.invoked) :
    ∃ x ∈ e.exits, i ∈ x.2.invocations x.1 := by
  rw [he.invoked] at hi
  exact List.mem_flatMap.mp hi

theorem mem_invocations {x : PendingRequest × Exit} {i : Invocation}
    (hi : i ∈ x.2.invocations x.1) :
    i.callback = x.1.callback := by
  obtain ⟨r, _ | _ | _⟩ := x <;> simp only [Exit.invocations, Callback.invoke] at hi
  · split_ifs at hi <;> simp_all
  · split_ifs at hi <;> simp_all
  · contradiction

/-- The callback of a queued request is invoked by the exit of that request. -/
theorem exit_of_own_invocation
    (hrun : runAll (step T) calls (start config net) = .ok (events, last))
    {e e' : PipelineEvent τ} (he : e ∈ events) {r : PendingRequest}
    (hr : r ∈ e.entered) (he' : e' ∈ events) {i : Invocation} (hi : i ∈ e'.log.invoked)
    (hsame : i.callback.submission = r.callback.submission) :
    ∃ x, (r, x) ∈ e'.exits ∧ i ∈ x.invocations r := by
  obtain ⟨⟨r', x⟩, hx, hix⟩ := exit_of_invoked (step_lawful (run_events hrun e' he')) hi
  have hleft : r' ∈ events.flatMap PipelineEvent.left :=
    List.mem_flatMap.mpr ⟨e', he', List.mem_map_of_mem hx⟩
  have hentered := (inFlightLedger T).run_entered rfl hrun hleft
  rw [mem_invocations hix] at hsame
  obtain rfl : r' = r := List.inj_on_of_nodup_map ((inFlightLedger T).run_distinct hrun) hentered
    (List.mem_flatMap.mpr ⟨e, he, hr⟩) hsame
  exact ⟨x, hx, hix⟩

/-- A response is handed over by an exit by response. -/
theorem value_invocations {x : PendingRequest × Exit} {i : Invocation}
    (hi : i ∈ x.2.invocations x.1) {pdu : PDU} (hvalue : i.result = .value pdu) :
    x.2 = .response pdu := by
  obtain ⟨r, _ | _ | _⟩ := x <;> simp only [Exit.invocations, Callback.invoke] at hi
  · split_ifs at hi <;> simp_all
  · split_ifs at hi
    · rw [List.mem_singleton.mp hi] at hvalue
      contradiction
    · contradiction
  · contradiction

theorem values_le_responses (exits : List (PendingRequest × Exit)) :
    ((exits.flatMap fun x => x.2.invocations x.1).filter (·.result.hasValue)).length ≤
      exits.countP (·.2.isResponse) := by
  induction exits with
  | nil => exact le_rfl
  | cons x exits ih =>
    have hfirst : ((x.2.invocations x.1).filter (·.result.hasValue)).length ≤
        if x.2.isResponse then 1 else 0 := by
      obtain ⟨r, _ | _ | _⟩ := x <;> simp only [Exit.invocations, Callback.invoke, Exit.isResponse]
      · split_ifs <;> simp [Result.hasValue]
      · split_ifs <;> simp [Result.hasValue, Result.fail]
      · simp
    rw [List.flatMap_cons, List.filter_append, List.length_append, List.countP_cons]
    omega

theorem run_handed {e : PipelineEvent τ} (he : e.Lawful) :
    (e.log.invoked.filter (·.result.hasValue)).length ≤ 1 ∧
      ∀ i ∈ e.log.invoked, ∀ pdu, i.result = .value pdu →
        ∃ r ∈ e.before.inFlight, i.callback = r.callback ∧ e.Reason r (.response pdu) := by
  constructor
  · rw [he.invoked]
    exact (values_le_responses e.exits).trans he.responses
  · intro i hi pdu hvalue
    obtain ⟨x, hx, hix⟩ := exit_of_invoked he hi
    obtain ⟨hmem, hreason⟩ := he.reason x hx
    rw [value_invocations hix hvalue] at hreason
    exact ⟨x.1, hmem, mem_invocations hix, hreason⟩

theorem run_cancelled (hrun : runAll (step T) calls (start config net) = .ok (events, last))
    {e : PipelineEvent τ} (he : e ∈ events) {id : CorrelationID}
    (hcall : e.call = .cancel id) (hfound : e.outcome = .cancelled true) :
    ∃ r ∈ e.before.inFlight, r.id = id ∧ r ∉ e.after.inFlight ∧
      ∀ e' ∈ events, ∀ i ∈ e'.log.invoked, i.callback.submission ≠ r.callback.submission := by
  have hstep := run_events hrun e he
  rw [hcall] at hstep
  obtain ⟨hpipeline, -, heq⟩ := step_cancel hstep
  rw [heq] at hfound
  simp only [PipelineOutcome.cancelled.injEq, decide_eq_true_eq] at hfound
  obtain ⟨r, hr, rfl⟩ := RequestQueue.mem_ids.mp hfound
  refine ⟨r, hr, rfl, ?_, ?_⟩
  · rw [inFlight, hpipeline, RequestQueue.mem_erase]
    exact fun h => h.2 rfl
  · -- an invocation for the same submission would make another exit of it
    intro e' he' i hi hsame
    obtain ⟨x, hx, hix⟩ := exit_of_invoked (step_lawful (run_events hrun e' he')) hi
    have hcancel : (r, Exit.cancel) ∈ events.flatMap PipelineEvent.exits := by
      refine List.mem_flatMap.mpr ⟨e, he, ?_⟩
      simp [PipelineEvent.exits, hcall, RequestQueue.find_eq_some.mpr ⟨hr, rfl⟩]
    rw [mem_invocations hix] at hsame
    obtain rfl := exit_unique hrun (List.mem_flatMap.mpr ⟨e', he', hx⟩) hcancel hsame
    contradiction

theorem run_counted {s s' : PipelineUse τ} (hrun : runAll (step T) calls s = .ok (events, s')) :
    s'.pipeline.totalCompleted = s.pipeline.totalCompleted +
      UInt64.ofNat ((events.flatMap PipelineEvent.exits).countP (·.2.isResponse)) := by
  induction calls generalizing s events with
  | nil =>
    cases hrun
    exact (UInt64.add_zero _).symm
  | cons call calls ih =>
    obtain ⟨e, s₁, events', hfirst, hothers, rfl⟩ := runAll_cons.mp hrun
    obtain ⟨-, rfl, rfl⟩ := step_event hfirst
    rw [ih hothers, (step_lawful hfirst).counted, List.flatMap_cons, List.countP_append,
      UInt64.ofNat_add, UInt64.add_assoc]

/-- The books of every run are in order. -/
theorem runs_accounted (hrun : runAll (step T) calls (start config net) = .ok (events, last)) :
    Accounted config events last where
  handed e he := run_handed (step_lawful (run_events hrun e he))
  settled e he r hr := run_settled hrun he hr
  once := run_once hrun
  reason e he := (step_lawful (run_events hrun e he)).reason
  invoked e he := (step_lawful (run_events hrun e he)).invoked
  invoked_once := run_invoked_once hrun
  cancelled e he id hcall hfound := run_cancelled hrun he hcall hfound
  bounded hpos e he := by
    have hstart : Bounded config.maxInFlight.toNat (start config net) :=
      ⟨rfl, fun _ => Nat.zero_le _⟩
    refine ((runAll_keeps (Bounded config.maxInFlight.toNat)
      (fun e => Bounded config.maxInFlight.toNat e.after)
      ?_ calls hstart hrun).2 e he).2 (UInt16.lt_iff_toNat_lt.mp hpos)
    intro call s e s' hbounded h
    rw [(step_event h).2.2]
    exact ⟨step_bounded hbounded h, step_bounded hbounded h⟩
  counted := by
    rw [Pipeline.completedCount, run_counted hrun]
    exact UInt64.zero_add _

end Run

/-- Two requests; the second is answered, the first is given up. -/
def outOfOrder : List PipelineCall :=
  [.submit (.makeStandard .readHoldingRegisters [0, 0, 0, 1]) true 0 ⟨0⟩,
    .submit (.makeStandard .readHoldingRegisters [0, 1, 0, 1]) true 0 ⟨0⟩, .poll ⟨5⟩ ⟨5⟩, .cancel 1]

def secondAnswered : Loopback :=
  { Loopback.connectedPair with toClient := [[0x6E, 1, 0, 0, 0, 2, 1, 0, 0]] }

theorem runs_accounted_out_of_order :
    ∃ events last, runAll (step Loopback.clientEnd) outOfOrder (start {} secondAnswered) =
      .ok (events, last) ∧
      last.inFlight = [] ∧ last.pipeline.completedCount = 1 ∧ Accounted {} events last := by
  obtain ⟨events, last, hrun, hflight, hcount⟩ :
      ∃ events last, runAll (step Loopback.clientEnd) outOfOrder (start {} secondAnswered) =
        .ok (events, last) ∧
        last.inFlight = [] ∧ last.pipeline.completedCount = 1 := ⟨_, _, rfl, rfl, rfl⟩
  exact ⟨events, last, hrun, hflight, hcount, runs_accounted hrun⟩

/-! ### The counter of completed requests has 64 bits -/

/-- A peer that sends every frame back. -/
def echo : Transport (List UInt8) where
  send frame _ := .ok (.ok, frame)
  receive _ frame := .ok (.value frame, frame)

/-- The request that is sent back as its own response. -/
def echoed (id : CorrelationID) : PDU := Pipeline.toSend id (.makeExtended {} [])

theorem deserialize_echoed (id : CorrelationID) :
    PDU.deserialize (.ofList (echoed id).serialize) = .ok (.value (echoed id)) := by
  have htimestamp : ¬FrameFlag.none.has .hasTimestamp = true := by decide
  have hhmac : ¬FrameFlag.none.has .hasHMAC = true := by decide
  have hwire : (echoed id).OnWire :=
    PDU.makeExtended_onWire rfl (fun h => absurd h htimestamp) (fun h => absurd h hhmac) (by decide)
  have hfc : (echoed id).functionCode ≠ .extendedStream :=
    show FunctionCode.extended ≠ .extendedStream by decide
  rw [PDU.deserialize_ofList, PDU.parse_serialize hwire hfc]

/-- A submission, and the poll for its response. -/
def round : List PipelineCall := [.submit (.makeExtended {} []) true 0 ⟨0⟩, .poll ⟨0⟩ ⟨0⟩]

/-- Nothing is in flight, and the limit is the default one. -/
def Idle (s : PipelineUse (List UInt8)) : Prop := s.pipeline.queue = (Pipeline.create {}).queue

theorem round_completes (s : PipelineUse (List UInt8)) (hidle : Idle s) :
    ∃ events s', runAll (step echo) round s = .ok (events, s') ∧ Idle s' ∧
      (events.flatMap PipelineEvent.exits).countP (·.2.isResponse) = 1 := by
  obtain ⟨⟨⟨config, queue, id, completed, latency⟩, net⟩, submissions⟩ := s
  obtain rfl : queue = (Pipeline.create {}).queue := hidle
  have hcorr : Pipeline.correlationOf (echoed id) = id := rfl
  obtain ⟨e, s₁, hsubmit, hnet, hpending, hsize, hexits⟩ :
    ∃ e s₁, step echo (.submit (.makeExtended {} []) true 0 ⟨0⟩)
        ⟨⟨⟨config, (Pipeline.create {}).queue, id, completed, latency⟩, net⟩, submissions⟩ =
          .ok (e, s₁) ∧
      s₁.net = (echoed id).serialize ∧
      s₁.inFlight = [⟨id, echoed id, ⟨0⟩, config.defaultTimeout, ⟨submissions, true⟩⟩] ∧
      s₁.pipeline.queue.maxSize = 16 ∧ e.exits = [] := ⟨_, _, rfl, rfl, rfl, rfl, rfl⟩
  obtain ⟨⟨⟨config₁, ⟨pending₁, maxSize₁, distinct₁⟩, id₁, completed₁, latency₁⟩, net₁⟩,
    submissions₁⟩ := s₁
  obtain rfl : net₁ = _ := hnet
  obtain rfl : pending₁ = [_] := hpending
  obtain rfl : maxSize₁ = 16 := hsize
  obtain ⟨e', s', hpoll, hidle', hresponse⟩ : ∃ e' s', step echo (.poll ⟨0⟩ ⟨0⟩)
        ⟨⟨⟨config₁, ⟨[⟨id, echoed id, ⟨0⟩, config.defaultTimeout, ⟨submissions, true⟩⟩], 16,
          distinct₁⟩, id₁, completed₁,
          latency₁⟩, (echoed id).serialize⟩, submissions₁⟩ = .ok (e', s') ∧ Idle s' ∧
      e'.exits.countP (·.2.isResponse) = 1 := by
    have hzero : signed 0 = .ok 0 := rfl
    simp only [step, Pipeline.poll, echo, ok_bind, deserialize_echoed, hcorr, RequestQueue.remove,
      RequestQueue.find, decide_true, List.find?_cons_of_pos, Pipeline.complete, Int64.reduceToInt,
      sub_self, hzero, RequestQueue.erase, ne_eq, decide_not, Bool.not_true, Bool.false_eq_true,
      not_false_eq_true, List.filter_cons_of_neg, List.filter_nil, RequestQueue.removeExpired,
      RequestQueue.expireLoop, pure_eq_ok]
    exact ⟨_, _, rfl, rfl, rfl⟩
  refine ⟨[e, e'], s', runAll_cons.mpr ⟨e, _, [e'], hsubmit, ?_, rfl⟩, hidle', ?_⟩
  · exact runAll_cons.mpr ⟨e', s', [], hpoll, rfl, rfl⟩
  · simp [hexits, hresponse]

theorem rounds_complete (n : ℕ) (s : PipelineUse (List UInt8)) (hidle : Idle s) :
    ∃ events s', runAll (step echo) (List.replicate n round).flatten s =
      .ok (events, s') ∧ Idle s' ∧
      (events.flatMap PipelineEvent.exits).countP (·.2.isResponse) = n := by
  induction n generalizing s with
  | zero => exact ⟨[], s, rfl, hidle, rfl⟩
  | succ n ih =>
    obtain ⟨events, s₁, hfirst, hidle₁, hone⟩ := round_completes s hidle
    obtain ⟨events', s', hothers, hidle', hrest⟩ := ih s₁ hidle₁
    refine ⟨events ++ events', s', ?_, hidle', ?_⟩
    · rw [List.replicate_succ, List.flatten_cons]
      exact runAll_append hfirst hothers
    · rw [List.flatMap_append, List.countP_append, hone, hrest, Nat.add_comm]

/-- After `2 ^ 64` responses the count of completed requests is 0 again. -/
theorem completedCount_wraps :
    ∃ events last, runAll (step echo) (List.replicate (2 ^ 64) round).flatten (start {} []) =
      .ok (events, last) ∧
      last.pipeline.completedCount = 0 ∧
      (events.flatMap PipelineEvent.exits).countP (·.2.isResponse) = 2 ^ 64 := by
  obtain ⟨events, last, hrun, -, hcount⟩ := rounds_complete (2 ^ 64) (start {} []) rfl
  refine ⟨events, last, hrun, ?_, hcount⟩
  rw [Pipeline.completedCount, run_counted hrun, hcount]
  rfl

end PipelineUse

end ModbusPp

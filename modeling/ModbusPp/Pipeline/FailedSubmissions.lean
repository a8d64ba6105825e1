import ModbusPp.Pipeline.PipelineRuns
import ModbusPp.Transport.Loopback

/-! Submissions that fail. The frame is sent before the queue is asked for room,
so a submission that finds the queue full has sent its request when it returns
`PipelineOverflow`. A record of the frames that went out makes this visible over
any transport. -/

namespace ModbusPp

open Foundation

variable {τ : Type}

/-- A transport with a record of the frames it accepted. -/
def Transport.recorded (T : Transport τ) : Transport (τ × List (List UInt8)) where
  send frame s := do
    let (sent, net) ← T.send frame s.1
    return (sent, net, if sent.hasValue then s.2 ++ [frame] else s.2)
  receive timeout s := do
    let (received, net) ← T.receive timeout s.1
    return (received, net, s.2)

theorem Transport.recorded_send {T : Transport τ} {frame : List UInt8}
    {s s' : τ × List (List UInt8)} {sent : VoidResult}
    (h : T.recorded.send frame s = .ok (sent, s')) :
    T.send frame s.1 = .ok (sent, s'.1) ∧ s'.2 = if sent.hasValue then s.2 ++ [frame] else s.2 := by
  obtain ⟨⟨sent', net⟩, hsend, h⟩ := bind_eq_ok.mp h
  cases h
  exact ⟨hsend, rfl⟩

namespace PipelineEvent

/-- The transport accepts the frame of the submission. -/
def Accepted (T : Transport τ) (e : PipelineEvent (τ × List (List UInt8))) : Prop :=
  ∃ request hasCallback timeout now sent net, e.call = .submit request hasCallback timeout now ∧
    T.send (e.before.pipeline.nextPending request ⟨e.before.submissions, hasCallback⟩
      timeout now).request.serialize
      e.before.net.1 = .ok (sent, net) ∧ sent.hasValue = true

/-- If the submission failed, it sent nothing and left the requests in flight as they were. -/
def FailedCleanly (e : PipelineEvent (τ × List (List UInt8))) : Prop :=
  ∀ ec, e.outcome = .submitted (.failure ec) →
    e.after.net.2 = e.before.net.2 ∧ e.after.inFlight = e.before.inFlight

end PipelineEvent

namespace PipelineUse

variable {T : Transport τ} {config : PipelineConfig} {net : τ} {calls : List PipelineCall}
  {events : List (PipelineEvent (τ × List (List UInt8)))}
    {last : PipelineUse (τ × List (List UInt8))}
  {request : PDU} {hasCallback : Bool} {timeout : Milliseconds} {now : Timestamp}

theorem step_failedCleanly_iff {s s' : PipelineUse (τ × List (List UInt8))}
    {e : PipelineEvent (τ × List (List UInt8))}
    (h : step T.recorded (.submit request hasCallback timeout now) s = .ok (e, s')) :
    e.FailedCleanly ↔ ¬(e.before.pipeline.queue.Full ∧ e.Accepted T) := by
  obtain ⟨result, hsubmit, -, rfl⟩ := step_submit h
  obtain ⟨sent, queue, hsend, hpipeline, hcases⟩ := Pipeline.submit_cases _ hsubmit
  obtain ⟨hnet, hrecord⟩ := Transport.recorded_send hsend
  have haccepted : (⟨.submit request hasCallback timeout now, .submitted result, s, s'⟩ :
      PipelineEvent (τ × List (List UInt8))).Accepted T ↔ sent.hasValue = true := by
    constructor
    · rintro ⟨_, _, _, _, sent', net', ⟨⟩, hsend', hvalue⟩
      rw [hnet, Except.ok.injEq, Prod.mk.injEq] at hsend'
      rwa [hsend'.1]
    · exact fun hvalue => ⟨_, _, _, _, sent, s'.net.1, rfl, hnet, hvalue⟩
  rw [haccepted]
  rcases hcases with ⟨hsent, rfl, rfl⟩ | ⟨hsent, hfull, rfl, rfl⟩ | ⟨hsent, hroom, -, rfl, rfl⟩ |
    ⟨hsent, hroom, -, rfl, -, -⟩
  · -- the transport refused
    rw [hsent] at hrecord ⊢
    exact iff_of_true (fun _ _ => ⟨hrecord, by rw [inFlight, hpipeline, inFlight]⟩)
      (fun h => Bool.false_ne_true h.2)
  · -- the queue was full, and the frame is out
    refine iff_of_false (fun hclean => ?_) (fun hnot => hnot ⟨hfull, hsent⟩)
    have hsame := (hclean _ rfl).1
    rw [hrecord, hsent] at hsame
    simp at hsame
  · refine iff_of_true (fun ec hfailed => ?_) (fun h => hroom h.1)
    cases hfailed
  · refine iff_of_true (fun ec hfailed => ?_) (fun h => hroom h.1)
    cases hfailed

/-- In every run, a submission fails cleanly unless the queue is full and the
transport accepts its frame. -/
theorem failedCleanly_iff
    (hrun : runAll (step T.recorded) calls (start config (net, [])) = .ok (events, last))
    {e : PipelineEvent (τ × List (List UInt8))} (he : e ∈ events)
    (hcall : e.call = .submit request hasCallback timeout now) :
    e.FailedCleanly ↔ ¬(e.before.pipeline.queue.Full ∧ e.Accepted T) := by
  have hstep := run_events hrun e he
  rw [hcall] at hstep
  exact step_failedCleanly_iff hstep

/-- Two submissions to a pipeline with room for one. -/
def twoForOne : List PipelineCall :=
  [.submit (.makeExtended {} []) true 0 ⟨0⟩, .submit (.makeExtended {} []) true 0 ⟨0⟩]

/-- A link that takes the first frame and no second one. -/
def oneFrame : Loopback :=
  { Loopback.connectedPair with client := { connected := true, drops := [false, true] } }

/-- The queue is full, and the link refuses the second frame. -/
theorem failedCleanly_refused : ∃ e e' last ec,
    runAll (step Loopback.clientEnd.recorded) twoForOne
      (start { maxInFlight := 1 } (oneFrame, [])) = .ok ([e, e'], last) ∧
    e'.outcome = .submitted (.failure ec) ∧ e'.before.pipeline.queue.Full ∧ e'.FailedCleanly := by
  obtain ⟨e, e', last, ec, hrun, hcall, hrefused, hfull, hdrops⟩ : ∃ e e' last ec,
      runAll (step Loopback.clientEnd.recorded) twoForOne
        (start { maxInFlight := 1 } (oneFrame, [])) = .ok ([e, e'], last) ∧
      e'.call = .submit (.makeExtended {} []) true 0 ⟨0⟩ ∧ e'.outcome = .submitted (.failure ec) ∧
      e'.before.pipeline.queue.Full ∧
      ∀ frame sent net, Loopback.clientEnd.send frame e'.before.net.1 = .ok (sent, net) →
        sent.hasValue = false := by
    refine ⟨_, _, _, _, rfl, rfl, rfl, by decide, ?_⟩
    rintro frame sent net ⟨⟩
    rfl
  have hclean := failedCleanly_iff hrun (List.mem_cons_of_mem _ List.mem_cons_self) hcall
  refine ⟨e, e', last, ec, hrun, hrefused, hfull, hclean.mpr ?_⟩
  rintro ⟨-, request, hasCallback, timeout, now, sent, net, -, hsend, hvalue⟩
  rw [hdrops _ _ _ hsend] at hvalue
  contradiction

/-- The second submission returns `PipelineOverflow`, and its frame is on the wire. -/
theorem overflow_after_send : ∃ e e' last,
    runAll (step Loopback.clientEnd.recorded) twoForOne
      (start { maxInFlight := 1 } (Loopback.connectedPair, [])) =
      .ok ([e, e'], last) ∧ e'.outcome = .submitted (.fail .pipelineOverflow) ∧
    e'.before.net.2.length = 1 ∧ e'.after.net.2.length = 2 ∧ last.net.1.toServer = last.net.2 :=
  ⟨_, _, _, rfl, rfl, rfl, rfl, rfl⟩

end PipelineUse

end ModbusPp

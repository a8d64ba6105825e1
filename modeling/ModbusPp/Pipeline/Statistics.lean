import ModbusPp.Foundation.Fifo
import ModbusPp.Pipeline.ArrivalOrder

/-! The statistics of a pipeline. Both counters have 64 bits and wrap, and a latency is cast
to an unsigned number before it is added; over a run they count the responses and add up
their latencies all the same, and a clock that has stepped back does no harm once the
latencies make up for it. -/

namespace ModbusPp

open Foundation

namespace Pipeline

/-- `average_latency`, in microseconds. -/
def averageLatency (p : Pipeline) : Int64 :=
  if p.totalCompleted = 0 then 0 else (p.totalLatencyUs / p.totalCompleted).toInt64

theorem toUInt64_ofInt (x : ℤ) : (Int64.ofInt x).toUInt64 = UInt64.ofInt x := by
  rw [← UInt64.toBitVec_inj]
  change BitVec.ofInt 64 x = BitVec.ofNat 64 (x % 2 ^ 64).toNat
  apply BitVec.eq_of_toNat_eq
  rw [BitVec.toNat_ofInt, BitVec.toNat_ofNat]
  omega

theorem toUInt64_of_signed {x : ℤ} {y : Int64} (h : signed x = .ok y) :
    y.toUInt64 = UInt64.ofInt x := by
  unfold signed at h
  split_ifs at h
  cases h
  exact toUInt64_ofInt x

variable {τ : Type} {T : Transport τ} {s s' : Pipelining τ} {log : PollLog}

/-- The latencies of the responses that a poll matched: of one, or of none. -/
def latencies (matchedAt : Timestamp) (log : PollLog) : List ℤ :=
  log.answered.toList.map fun a => matchedAt.usSinceEpoch.toInt - a.1.sentAt.usSinceEpoch.toInt

/-- The counters of a pipeline that has matched responses with these latencies. -/
structure Counts (p : Pipeline) (ls : List ℤ) : Prop where
  completed : p.totalCompleted = .ofInt ls.length
  latency : p.totalLatencyUs = .ofInt ls.sum

/-- A poll counts what it matched. -/
theorem Counts.poll {ls : List ℤ} (hcounts : Counts s.pipeline ls) {matchedAt sweptAt : Timestamp}
    (h : Pipeline.poll T matchedAt sweptAt s = .ok (log, s')) :
    Counts s'.pipeline (ls ++ latencies matchedAt log) := by
  obtain ⟨⟨received, net⟩, -, h⟩ := bind_eq_ok.mp h
  have hnothing (frame : Option (List UInt8)) : ls ++ latencies matchedAt { frame } = ls :=
    List.append_nil ls
  cases received with
  | failure ec =>
    cases h
    rwa [hnothing none]
  | value frame =>
    obtain ⟨decoded, -, h⟩ := bind_eq_ok.mp h
    cases decoded with
    | failure ec =>
      cases h
      rwa [hnothing (some frame)]
    | value pdu =>
      dsimp only at h
      cases hremove : s.pipeline.queue.remove (correlationOf pdu) with
      | mk found queue =>
        rw [hremove] at h
        cases found with
        | none =>
          cases h
          rwa [hnothing (some frame)]
        | some r =>
          obtain ⟨⟨log', p'⟩, hcomplete, h⟩ := bind_eq_ok.mp h
          obtain ⟨latencyUs, hlatency, hcomplete⟩ := bind_eq_ok.mp hcomplete
          obtain ⟨⟨expired, queue'⟩, -, hcomplete⟩ := bind_eq_ok.mp hcomplete
          cases hcomplete
          cases h
          rw [latencies, Option.toList_some, List.map_singleton]
          constructor
          · rw [List.length_append, List.length_singleton, Nat.cast_add,
              UInt64.ofInt_add, ← hcounts.completed]
            rfl
          · rw [List.sum_append, List.sum_singleton,
              UInt64.ofInt_add, ← hcounts.latency, ← toUInt64_of_signed hlatency]

theorem Counts.average {p : Pipeline} {ls : List ℤ} (h : Counts p ls)
    (hcount : ls.length < 2 ^ 64) :
    p.completedCount.toNat = ls.length ∧
      (0 ≤ ls.sum → ls.sum < 2 ^ 63 → p.averageLatency.toInt = ls.sum / ls.length) := by
  have hcompleted : p.totalCompleted.toNat = ls.length := by
    rw [h.completed]
    change (UInt64.ofNat ((ls.length : ℤ) % 2 ^ 64).toNat).toNat = _
    rw [UInt64.toNat_ofNat']
    omega
  refine ⟨hcompleted, fun hnonneg hfits => ?_⟩
  have hsum : (p.totalLatencyUs.toNat : ℤ) = ls.sum := by
    rw [h.latency]
    change ((UInt64.ofNat (ls.sum % 2 ^ 64).toNat).toNat : ℤ) = _
    rw [UInt64.toNat_ofNat']
    omega
  rw [averageLatency]
  split_ifs with hzero
  · rw [← hcompleted, hzero]
    simp
  · have hdiv : ((p.totalLatencyUs / p.totalCompleted).toNat : ℤ) = ls.sum / ls.length := by
      rw [UInt64.toNat_div, Int.natCast_ediv, hsum, hcompleted]
    have hlt : 2 * (p.totalLatencyUs / p.totalCompleted).toNat < 2 ^ 64 := by
      have hle := Nat.div_le_self p.totalLatencyUs.toNat p.totalCompleted.toNat
      rw [UInt64.toNat_div]
      omega
    exact (BitVec.toInt_eq_toNat_of_lt hlt).trans hdiv

end Pipeline

namespace PipelineEvent

variable {τ : Type}

/-- The latency of the response that the call matched, if it did. -/
def latencies (e : PipelineEvent τ) : List ℤ :=
  match e.call with
  | .poll matchedAt _ => Pipeline.latencies matchedAt e.log
  | _ => []

end PipelineEvent

namespace PipelineUse

variable {τ : Type} {T : Transport τ} {s s' : PipelineUse τ} {e : PipelineEvent τ}

theorem step_counts {call : PipelineCall} {ls : List ℤ} (hcounts : s.pipeline.Counts ls)
    (h : step T call s = .ok (e, s')) : s'.pipeline.Counts (ls ++ e.latencies) := by
  cases call with
  | submit request hasCallback timeout now =>
    obtain ⟨result, hsubmit, -, rfl⟩ := step_submit h
    obtain ⟨sent, queue, -, hpipeline, -⟩ := Pipeline.submit_cases T hsubmit
    rw [hpipeline, PipelineEvent.latencies, List.append_nil]
    exact ⟨hcounts.completed, hcounts.latency⟩
  | cancel id =>
    obtain ⟨hpipeline, -, rfl⟩ := step_cancel h
    rw [hpipeline, PipelineEvent.latencies, List.append_nil]
    exact ⟨hcounts.completed, hcounts.latency⟩
  | poll matchedAt sweptAt =>
    obtain ⟨log, hpoll, -, rfl⟩ := step_poll h
    exact hcounts.poll hpoll

/-- In every run of a new pipeline `completed_count` is the number of responses that were
matched, and `average_latency` is the mean of their latencies, rounded down, as long as
their sum is not negative and fits. -/
theorem statistics_exact {config : PipelineConfig} {net : τ}
    {calls : List PipelineCall} {events : List (PipelineEvent τ)}
    (hrun : runAll (step T) calls (start config net) = .ok (events, s'))
    (hcount : (events.flatMap PipelineEvent.latencies).length < 2 ^ 64) :
    s'.pipeline.completedCount.toNat = (events.flatMap PipelineEvent.latencies).length ∧
      (0 ≤ (events.flatMap PipelineEvent.latencies).sum →
        (events.flatMap PipelineEvent.latencies).sum < 2 ^ 63 →
        s'.pipeline.averageLatency.toInt =
          (events.flatMap PipelineEvent.latencies).sum /
            (events.flatMap PipelineEvent.latencies).length) := by
  have hstart : (start config net).pipeline.Counts [] := ⟨rfl, rfl⟩
  exact (runAll_appends (fun s ls => Pipeline.Counts s.pipeline ls) PipelineEvent.latencies calls
    (fun _ _ _ _ _ _ hcounts h => step_counts hcounts h) hstart hrun).average hcount

/-- Two responses, after ten and after thirty microseconds. -/
theorem statistics_exact_two : ∃ events s', runAll (step Transport.replies)
      [.submit (.makeStandard ⟨3⟩ []) true 0 ⟨100⟩, .submit (.makeStandard ⟨3⟩ []) true 0 ⟨200⟩,
        .poll ⟨110⟩ ⟨110⟩,
        .poll ⟨230⟩ ⟨230⟩] (start {} [emptyResponse 1, emptyResponse 2]) = .ok (events, s') ∧
    s'.pipeline.completedCount.toNat = 2 ∧ s'.pipeline.averageLatency.toInt = 20 := by
  obtain ⟨events, s', hrun, hlatencies⟩ : ∃ events s', runAll (step Transport.replies)
      [.submit (.makeStandard ⟨3⟩ []) true 0 ⟨100⟩, .submit (.makeStandard ⟨3⟩ []) true 0 ⟨200⟩,
        .poll ⟨110⟩ ⟨110⟩,
        .poll ⟨230⟩ ⟨230⟩] (start {} [emptyResponse 1, emptyResponse 2]) = .ok (events, s') ∧
      events.flatMap PipelineEvent.latencies = [10, 30] := ⟨_, _, rfl, rfl⟩
  obtain ⟨hcompleted, haverage⟩ := statistics_exact hrun (by rw [hlatencies]; decide)
  rw [hlatencies] at hcompleted haverage
  exact ⟨events, s', hrun, hcompleted, haverage (by decide) (by decide)⟩

end PipelineUse

end ModbusPp

import ModbusPp.Pipeline.PipelineRuns
import ModbusPp.PubSub.Publisher
import ModbusPp.Transport.Traced

/-! A pipeline on the transport that a publisher pushes to. A notification carries the
correlation id 0, so it stays without effect until the 16-bit counter comes round: the
65536th submission goes out under 0, and the next notification is its response. -/

namespace ModbusPp

open Foundation

namespace PDU

variable {raw : Span UInt8} {fc : FunctionCode} {hdr : FrameHeader} {offset : ℕ} {pdu : PDU}

theorem deserializeHmac_header {payload : List UInt8}
    (h : deserializeHmac raw fc hdr payload offset = .ok (.value pdu)) :
    pdu.extHeader = some hdr := by
  unfold deserializeHmac at h
  split_ifs at h
  · cases h
  · obtain ⟨digest, -, h⟩ := bind_eq_ok.mp h
    cases h
    rfl
  · cases h
    rfl

theorem deserializePayload_header (h : deserializePayload raw fc hdr offset = .ok (.value pdu)) :
    ∃ hdr', pdu.extHeader = some hdr' ∧ hdr'.correlationId = hdr.correlationId := by
  unfold deserializePayload at h
  split_ifs at h
  · cases h
  · obtain ⟨extFc, -, h⟩ := bind_eq_ok.mp h
    obtain ⟨hi, -, h⟩ := bind_eq_ok.mp h
    obtain ⟨lo, -, h⟩ := bind_eq_ok.mp h
    dsimp only at h
    split_ifs at h
    · cases h
    · obtain ⟨payload, -, h⟩ := bind_eq_ok.mp h
      exact ⟨{ hdr with extFunctionCode := ⟨extFc⟩, payloadLength := word hi lo },
        deserializeHmac_header h, rfl⟩

theorem deserializeTimestamp_header
    (h : deserializeTimestamp raw fc hdr offset = .ok (.value pdu)) :
    ∃ hdr', pdu.extHeader = some hdr' ∧ hdr'.correlationId = hdr.correlationId := by
  unfold deserializeTimestamp at h
  split_ifs at h
  · cases h
  · obtain ⟨ts, -, h⟩ := bind_eq_ok.mp h
    obtain ⟨hdr', hsome, hcorr⟩ := deserializePayload_header h
    exact ⟨hdr', hsome, hcorr⟩
  · exact deserializePayload_header h

theorem deserialize_correlationOf {byte hi lo : UInt8} (hfc : raw.read 0 = .ok byte)
    (hext : (⟨byte⟩ : FunctionCode).IsExtended) (hhi : raw.read 4 = .ok hi)
    (hlo : raw.read 5 = .ok lo) (h : deserialize raw = .ok (.value pdu)) :
    Pipeline.correlationOf pdu = word hi lo := by
  by_cases hempty : raw.size < 1
  · rw [deserialize, if_pos hempty] at h
    cases h
  by_cases hshort : raw.size < 9
  · simp only [deserialize, if_neg hempty, hfc, ok_bind, hext, not_true, if_false,
      if_pos hshort] at h
    cases h
  simp only [deserialize, if_neg hempty, hfc, ok_bind, hext, not_true, if_false, if_neg hshort] at h
  obtain ⟨version, -, h⟩ := bind_eq_ok.mp h
  split_ifs at h
  · cases h
  · obtain ⟨f₁, -, h⟩ := bind_eq_ok.mp h
    obtain ⟨f₀, -, h⟩ := bind_eq_ok.mp h
    simp only [hhi, hlo, ok_bind] at h
    obtain ⟨hdr', hsome, hcorr⟩ := deserializeTimestamp_header h
    rw [Pipeline.correlationOf, hsome]
    exact hcorr

end PDU

theorem EventNotification.correlationOf_frame {notif : EventNotification} {pdu : PDU}
    (h : PDU.deserialize (.ofList notif.frame) = .ok (.value pdu)) :
    Pipeline.correlationOf pdu = 0 := by
  have hfc : (Span.ofList notif.frame).read 0 = .ok 0x6E := rfl
  have hhi : (Span.ofList notif.frame).read 4 = .ok (hiByte 0) := rfl
  have hlo : (Span.ofList notif.frame).read 5 = .ok (loByte 0) := rfl
  rw [PDU.deserialize_correlationOf hfc (by decide) hhi hlo h, word_bytes]

namespace PipelineUse

variable {τ : Type} {T : Transport τ} {s s' : PipelineUse τ} {e : PipelineEvent τ}

/-- The ids are the numbers of the submissions, counted from 1 in 16 bits. -/
structure Numbered (s : PipelineUse τ) : Prop where
  nextId : s.pipeline.nextId = UInt16.ofNat (s.submissions + 1)
  id : ∀ r ∈ s.inFlight, r.callback.submission < s.submissions ∧
  r.id = UInt16.ofNat (r.callback.submission + 1)

theorem numbered_start (config : PipelineConfig) (net : τ) : Numbered (start config net) :=
  ⟨rfl, nofun⟩

theorem step_numbered {call : PipelineCall} (hnumbered : Numbered s)
    (h : step T call s = .ok (e, s')) :
    Numbered s' := by
  have hkeep {submissions : ℕ} (hle : s.submissions ≤ submissions) : ∀ r ∈ s.inFlight,
      r.callback.submission < submissions ∧ r.id = UInt16.ofNat (r.callback.submission + 1) :=
    fun r hr => ⟨(hnumbered.id r hr).1.trans_le hle, (hnumbered.id r hr).2⟩
  cases call with
  | submit request hasCallback timeout now =>
    obtain ⟨result, hsubmit, hnext, -⟩ := step_submit h
    obtain ⟨sent, queue, -, hpipeline, -⟩ := Pipeline.submit_cases T hsubmit
    refine ⟨?_, ?_⟩
    · rw [hpipeline, hnext]
      change s.pipeline.nextId + 1 = _
      rw [hnumbered.nextId, UInt16.ofNat_add (s.submissions + 1)]
      rfl
    · rw [hnext]
      rcases entered_submit h with ⟨-, hsame⟩ | ⟨-, -, hadded⟩
      · rw [hsame]
        exact hkeep (Nat.le_succ _)
      · rw [hadded]
        refine List.forall_mem_append.mpr
          ⟨hkeep (Nat.le_succ _), List.forall_mem_singleton.mpr ⟨Nat.lt_succ_self _, ?_⟩⟩
        exact hnumbered.nextId
  | poll matchedAt sweptAt =>
    obtain ⟨log, hpoll, hsame, -⟩ := step_poll h
    have hsub : ∀ r ∈ s'.inFlight, r ∈ s.inFlight := fun r hr =>
      (left_poll h).2.mem_iff.mpr (List.mem_append_right _ hr)
    refine ⟨?_, fun r hr => hkeep hsame.ge r (hsub r hr)⟩
    rw [hsame, ← hnumbered.nextId]
    rcases Pipeline.poll_cases T hpoll with ⟨hpipeline, -⟩ | ⟨frame, pdu, r, -, -, -, hcompletes⟩
    · rw [hpipeline]
    · exact hcompletes.nextId_eq
  | cancel id =>
    obtain ⟨hpipeline, hsame, -⟩ := step_cancel h
    have hsub : ∀ r ∈ s'.inFlight, r ∈ s.inFlight := fun r hr =>
      (left_cancel h).2.mem_iff.mpr (List.mem_append_right _ hr)
    refine ⟨?_, fun r hr => hkeep hsame.ge r (hsub r hr)⟩
    rw [hsame, ← hnumbered.nextId, hpipeline]

/-- Every request of a run has the id of its submission. -/
theorem run_numbered {config : PipelineConfig} {net : τ} {calls : List PipelineCall}
    {events : List (PipelineEvent τ)} {last : PipelineUse τ}
    (hrun : runAll (step T) calls (start config net) = .ok (events, last)) :
    ∀ e ∈ events, Numbered e.before :=
  (runAll_keeps Numbered (fun e => Numbered e.before) (fun _ _ _ _ hnumbered h =>
    ⟨step_numbered hnumbered h, (step_event h).2.1 ▸ hnumbered⟩) calls
      (numbered_start config net) hrun).2

theorem id_eq_zero_iff (hnumbered : Numbered s) {r : PendingRequest} (hr : r ∈ s.inFlight) :
    r.id = 0 ↔ r.callback.submission % 65536 = 65535 := by
  rw [(hnumbered.id r hr).2, ← UInt16.toNat_inj, UInt16.toNat_ofNat']
  simp only [UInt16.toNat_zero]
  omega

theorem poll_notification {call : PipelineCall} {notif : EventNotification}
    (h : step T call s = .ok (e, s')) (hframe : e.log.frame = some notif.frame) :
    (e.log.answered = none ∧ e.log.invoked = [] ∧ s'.pipeline = s.pipeline ∧
      ∀ pdu, PDU.deserialize (.ofList notif.frame) = .ok (.value pdu) →
        ∀ r ∈ s.inFlight, r.id ≠ 0) ∨
    ∃ pdu r, PDU.deserialize (.ofList notif.frame) = .ok (.value pdu) ∧
      e.log.answered = some (r, pdu) ∧
      r ∈ s.inFlight ∧ r.id = 0 ∧ r.callback.invoke (.value pdu) <+: e.log.invoked := by
  cases call with
  | submit request hasCallback timeout now =>
    obtain ⟨result, -, -, rfl⟩ := step_submit h
    cases hframe
  | cancel id =>
    obtain ⟨-, -, rfl⟩ := step_cancel h
    cases hframe
  | poll matchedAt sweptAt =>
    obtain ⟨log, hpoll, -, rfl⟩ := step_poll h
    rcases Pipeline.poll_inv T hpoll with ⟨ec, -, rfl, -⟩ |
      ⟨frame, decoded, -, hdecode, hlog, hcases⟩
    · cases hframe
    · obtain rfl := Option.some.inj (hlog.symm.trans hframe)
      rcases hcases with ⟨rfl, hsame, hunmatched⟩ | ⟨pdu, r, rfl, hcompletes⟩
      · refine .inl ⟨rfl, rfl, hsame, fun pdu hpdu r hr hzero => ?_⟩
        have hnot := hunmatched pdu (Except.ok.inj (hdecode.symm.trans hpdu))
        rw [EventNotification.correlationOf_frame hpdu] at hnot
        exact hnot (RequestQueue.mem_ids.mpr ⟨r, hr, hzero⟩)
      · obtain ⟨hr, hid⟩ := RequestQueue.find_eq_some.mp hcompletes.found
        rw [EventNotification.correlationOf_frame hdecode] at hid
        exact .inr ⟨pdu, r, hdecode, hcompletes.answered, hr, hid,
          hcompletes.invoked ▸ List.prefix_append _ _⟩

end PipelineUse

end ModbusPp

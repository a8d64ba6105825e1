import ModbusPp.Client.Operation

/-! Exception responses at the client. The exception byte becomes the value of
the error code, so a byte of zero is an error that equals success: `Result<void>`
reports it as success, the other results as a failure without a code. -/

namespace ModbusPp.Operation

open Foundation

variable {τ : Type} {T : Transport τ} {s : Running τ}

/-- The operation reports a failure, with an error code that is one. -/
def ReportsFailure (T : Transport τ) (op : Operation) (s : Running τ) : Prop :=
  ∃ out s', op.run T s = .ok (out, s') ∧ out.hasValue = false ∧ out.error.value ≠ 0

/-- The exception byte of a response, as an error code. -/
theorem responseResult_exception {pdu : PDU} (h : pdu.functionCode.IsException) :
    ∃ ec, Client.responseResult pdu = .failure ec ∧
      (ec.value ≠ 0 ↔ pdu.payload.head? ≠ some 0) := by
  rw [Client.responseResult, if_pos h]
  cases pdu.payload with
  | nil => exact ⟨_, rfl, by simp [ErrorCode.invalidFrame]⟩
  | cons code rest =>
    refine ⟨_, rfl, ?_⟩
    simp [← UInt8.toNat_inj]

/-- Exactly the exception responses whose exception byte is not zero are reported
as failures, by every operation and over every transport. -/
theorem exceptionResponse_reported_iff (op : Operation) (s : Running τ)
    (net net' : τ) (sent : VoidResult) (hsend : T.send (op.frame s.client) s.net = .ok (sent, net))
    (hsent : sent.hasValue = true) (bytes : List UInt8)
    (hrecv : T.receive s.client.config.defaultTimeout net = .ok (.value bytes, net'))
    (unitId : UInt8) (pdu : PDU) (txnId : UInt16)
    (hunwrap : FrameCodec.unwrapTcp (.ofList bytes) = .ok (.value (unitId, pdu, txnId)))
    (hexception : pdu.functionCode.IsException) :
    op.ReportsFailure T s ↔ pdu.payload.head? ≠ some 0 := by
  obtain ⟨ec, hresult, hec⟩ := responseResult_exception hexception
  have hdecode := Client.decodeResponse_value hunwrap
  rw [hresult] at hdecode
  obtain ⟨out, hfinish, herror, hfails⟩ := op.finish_failure ec
  have hrun := run_received hsend hsent hrecv hdecode hfinish
  rw [← hec]
  constructor
  · rintro ⟨out', s', hout, -, hne⟩
    rw [hrun, Except.ok.injEq, Prod.mk.injEq] at hout
    rwa [← herror, hout.1]
  · intro hne
    exact ⟨out, _, hrun, hfails hne, by rwa [herror]⟩

/-- A transport whose every receive returns one frame. -/
def answering (frame : List UInt8) : Transport Unit where
  send _ net := .ok (.ok, net)
  receive _ net := .ok (.value frame, net)

theorem exceptionResponse_reported_busy :
    (writeSingleRegister 1 0 7).ReportsFailure
      (answering [0, 1, 0, 0, 0, 3, 1, 0x86, 6]) ⟨{}, ()⟩ :=
  (exceptionResponse_reported_iff (T := answering [0, 1, 0, 0, 0, 3, 1, 0x86, 6])
    (writeSingleRegister 1 0 7) ⟨{}, ()⟩ () () .ok rfl rfl [0, 1, 0, 0, 0, 3, 1, 0x86, 6] rfl
    1 (.makeStandard ⟨0x86⟩ [6]) 1 (by decide) (by decide)).mpr (by decide)

/-- An exception response with exception byte zero makes a write succeed. -/
theorem exceptionResponse_reported_as_success :
    FrameCodec.unwrapTcp (.ofList [0, 1, 0, 0, 0, 3, 1, 0x86, 0]) =
      .ok (.value (1, .makeStandard ⟨0x86⟩ [0], 1)) ∧
    (⟨0x86⟩ : FunctionCode).IsException ∧
    (∃ s', (writeSingleRegister 1 0 7).run (answering [0, 1, 0, 0, 0, 3, 1, 0x86, 0]) ⟨{}, ()⟩ =
      .ok (.done (.fail .success), s')) ∧
    (Outcome.done (.fail .success)).hasValue = true ∧
    ¬(writeSingleRegister 1 0 7).ReportsFailure (answering [0, 1, 0, 0, 0, 3, 1, 0x86, 0])
      ⟨{}, ()⟩ := by
  have hrun : (writeSingleRegister 1 0 7).run (answering [0, 1, 0, 0, 0, 3, 1, 0x86, 0]) ⟨{}, ()⟩ =
      .ok (.done (.fail .success), ⟨({} : Client).advance, ()⟩) := rfl
  refine ⟨by decide, by decide, ⟨_, hrun⟩, rfl, ?_⟩
  rintro ⟨out, s', hout, hvalue, -⟩
  rw [hrun, Except.ok.injEq, Prod.mk.injEq] at hout
  rw [← hout.1] at hvalue
  contradiction

end ModbusPp.Operation

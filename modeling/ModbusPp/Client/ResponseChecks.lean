import ModbusPp.Client.ExceptionResponses
import ModbusPp.Core.PduAcceptance

/-! What the client checks of a response. The function code is only looked at for bit 7;
a read compares the byte count with the size and takes the registers up to the end, and
the writes look at nothing else. So any response without bit 7 is good enough for a
write, and any one whose second byte is not too large for a read. -/

namespace ModbusPp

open Foundation

theorem FrameCodec.unwrapTcp_rejection {frame : List UInt8} {ec : StdErrorCode}
    (h : unwrapTcp (.ofList frame) = .ok (.failure ec)) : ec.value ≠ 0 := by
  rw [unwrapTcp, unwrapHeader_eq, ok_bind] at h
  split_ifs at h
  · obtain ⟨decoded, hdecode, h⟩ := bind_eq_ok.mp h
    cases decoded with
    | value pdu => cases h
    | failure ec' =>
      cases h
      rcases PDU.deserialize_rejection hdecode with rfl | rfl <;> decide
  · cases h
    decide

namespace Operation

/-- The operations on registers. -/
def AccessesRegisters : Operation → Prop
  | readHoldingRegisters .. | writeSingleRegister .. | writeMultipleRegisters .. => True
  | transact .. | batchRead .. => False

/-- The response is the one to the request: a read of so many registers, or the echo of
the address and the value or quantity. -/
def Expects : Operation → PDU → Prop
  | readHoldingRegisters _ _ count, response =>
    response.functionCode = .readHoldingRegisters ∧
      ∃ byteCount data, response.payload = byteCount :: data ∧ byteCount.toNat = 2 * count.toNat
  | writeSingleRegister _ addr value, response =>
    response.functionCode = .writeSingleRegister ∧
      response.payload.take 4 = [hiByte addr, loByte addr, hiByte value, loByte value]
  | writeMultipleRegisters _ addr values, response =>
    response.functionCode = .writeMultipleRegisters ∧
      response.payload.take 4 =
        [hiByte addr, loByte addr, hiByte (.ofNat values.length), loByte (.ofNat values.length)]
  | _, _ => False

/-- As many registers as asked for. -/
def Fits : Operation → Outcome → Prop
  | readHoldingRegisters _ _ count, .registers (.value regs) => regs.length = count.toNat
  | _, _ => True

variable {τ : Type} {T : Transport τ} {op : Operation} {s : Running τ}
  {net net' : τ} {sent : VoidResult}
  {bytes : List UInt8}

/-- The operation returns, and with a success only if the received bytes are the response
to its request. -/
def Validates (T : Transport τ) (op : Operation) (s : Running τ) (bytes : List UInt8) : Prop :=
  ∃ out s', op.run T s = .ok (out, s') ∧
    (out.hasValue = true → op.Fits out ∧ ∃ unitId response txnId,
    FrameCodec.unwrapTcp (.ofList bytes) = .ok (.value (unitId, response, txnId)) ∧
    op.Expects response)

/-- There is no byte count, or less data than it says. -/
def Truncated (response : PDU) : Prop :=
  ∀ byteCount data, response.payload = byteCount :: data → data.length < byteCount.toNat

/-- A response that the client rejects in any case, or the one to the request. What it
rejects are exceptions (for a write, those with a code other than 0) and truncated reads;
a read may have one byte more than its byte count. -/
def Safe : Operation → PDU → Prop
  | op@(readHoldingRegisters _ _ count), response =>
    response.functionCode.IsException ∨ Truncated response ∨
      op.Expects response ∧ response.payload.length ≤ 2 * count.toNat + 2
  | op, response => response.functionCode.IsException ∧ response.payload.head? ≠ some 0 ∨
      op.Expects response

/-- The received bytes are inside the client's checks: they do not decode, or to a safe
response. -/
def Harmless (op : Operation) (bytes : List UInt8) : Prop :=
  match FrameCodec.unwrapTcp (.ofList bytes) with
  | .error _ => False
  | .ok (.failure _) => True
  | .ok (.value (_, response, _)) => op.Safe response

theorem readResponse_value {response : PDU} {regs : List UInt16} :
    Client.readResponse response = .value regs ↔
      ∃ byteCount data, response.payload = byteCount :: data ∧ byteCount.toNat ≤ data.length ∧
        regs = registersOf data := by
  unfold Client.readResponse
  split
  · rename_i hpayload
    simp [hpayload, Result.fail]
  · rename_i byteCount data hpayload
    split_ifs with hshort
    · simp [hpayload, Result.fail]
      omega
    · have hle : byteCount.toNat ≤ data.length := by omega
      simp [hpayload, hle, eq_comm]

theorem writeResult_responseResult (response : PDU) :
    (Client.writeResult (Client.responseResult response)).hasValue = true ↔
      ¬(response.functionCode.IsException ∧ response.payload.head? ≠ some 0) := by
  by_cases hexception : response.functionCode.IsException
  · obtain ⟨ec, hresult, hec⟩ := responseResult_exception hexception
    rw [hresult, Client.writeResult, VoidResult.hasValue_iff, ← hec]
    simp [hexception]
  · rw [Client.responseResult_of_not hexception]
    simp [Client.writeResult, VoidResult.hasValue, VoidResult.ok, StdErrorCode.isError,
      StdErrorCode.none, hexception]

theorem read_safe_iff (unit : UInt8) (addr count : UInt16) (response : PDU) :
    (∀ regs, (Client.responseResult response).andThen Client.readResponse = .value regs →
      regs.length = count.toNat ∧ (readHoldingRegisters unit addr count).Expects response) ↔
    (readHoldingRegisters unit addr count).Safe response := by
  by_cases hexception : response.functionCode.IsException
  · obtain ⟨ec, hresult, -⟩ := responseResult_exception hexception
    rw [hresult]
    exact iff_of_true (fun _ h => by cases h) (.inl hexception)
  rw [Client.responseResult_of_not hexception, Result.andThen_value, Safe, or_iff_right hexception]
  constructor
  · intro h
    by_cases hshort : Truncated response
    · exact .inl hshort
    · unfold Truncated at hshort
      push Not at hshort
      obtain ⟨byteCount, data, hpayload, hle⟩ := hshort
      obtain ⟨hlen, hexpects⟩ := h _ (readResponse_value.mpr ⟨byteCount, data, hpayload, hle, rfl⟩)
      refine .inr ⟨hexpects, ?_⟩
      rw [length_registersOf] at hlen
      rw [hpayload, List.length_cons]
      omega
  · rintro (hshort | ⟨⟨hfc, byteCount, data, hpayload, hcount⟩, hsize⟩) regs hregs
    · obtain ⟨byteCount, data, hpayload, hle, -⟩ := readResponse_value.mp hregs
      exact absurd (hshort byteCount data hpayload) (Nat.not_lt.mpr hle)
    · obtain ⟨byteCount', data', hpayload', hle, rfl⟩ := readResponse_value.mp hregs
      obtain ⟨rfl, rfl⟩ := List.cons.inj (hpayload.symm.trans hpayload')
      refine ⟨?_, hfc, byteCount, data, hpayload, hcount⟩
      rw [hpayload, List.length_cons] at hsize
      rw [length_registersOf]
      omega

theorem finish_safe_iff (hop : op.AccessesRegisters) (response : PDU) :
    (∃ out, op.finish (Client.responseResult response) = .ok out ∧
      (out.hasValue = true → op.Fits out ∧ op.Expects response)) ↔ op.Safe response := by
  cases op with
  | transact => exact hop.elim
  | batchRead => exact hop.elim
  | readHoldingRegisters unit addr count =>
    rw [← read_safe_iff]
    simp only [finish, pure_eq_ok, Except.ok.injEq, exists_eq_left']
    cases (Client.responseResult response).andThen Client.readResponse with
    | failure ec => simp [Outcome.hasValue, Result.hasValue]
    | value regs => simp [Outcome.hasValue, Result.hasValue, Fits]
  | writeSingleRegister unit addr value =>
    simp only [finish, pure_eq_ok, Except.ok.injEq, exists_eq_left', Outcome.hasValue,
      writeResult_responseResult, Fits, true_and, Safe, or_iff_not_imp_left]
  | writeMultipleRegisters unit addr values =>
    simp only [finish, pure_eq_ok, Except.ok.injEq, exists_eq_left', Outcome.hasValue,
      writeResult_responseResult, Fits, true_and, Safe, or_iff_not_imp_left]

theorem run_faults (hsend : T.send (op.frame s.client) s.net = .ok (sent, net))
    (hsent : sent.hasValue = true)
    (hrecv : T.receive s.client.config.defaultTimeout net = .ok (.value bytes, net'))
    {fault : Fault}
    (hunwrap : FrameCodec.unwrapTcp (.ofList bytes) = .error fault) :
    op.run T s = .error fault := by
  have hdecode : Client.decodeResponse bytes = .error fault := by
    rw [Client.decodeResponse, hunwrap]; rfl
  rw [run_eq, Client.transact]
  rw [frame] at hsend
  simp only [hsend, hsent, hrecv, hdecode, ok_bind, Bool.not_true, Bool.false_eq_true, if_false]
  rfl

/-- Over any transport, a read or a write reports success only for the response to its
request, whatever bytes come in, exactly if the bytes are harmless. -/
theorem validates_iff (hop : op.AccessesRegisters)
    (hsend : T.send (op.frame s.client) s.net = .ok (sent, net))
    (hsent : sent.hasValue = true)
    (hrecv : T.receive s.client.config.defaultTimeout net = .ok (.value bytes, net')) :
    op.Validates T s bytes ↔ op.Harmless bytes := by
  unfold Harmless Validates
  split
  · rename_i fault hunwrap
    rw [run_faults hsend hsent hrecv hunwrap]
    simp
  · rename_i ec hunwrap
    have hdecode : Client.decodeResponse bytes = .ok (.failure ec) := by
      rw [Client.decodeResponse, hunwrap]; rfl
    obtain ⟨out, hfinish, -, hfails⟩ := op.finish_failure ec
    have hrejected := hfails (FrameCodec.unwrapTcp_rejection hunwrap)
    exact iff_of_true
      ⟨out, _, run_received hsend hsent hrecv hdecode hfinish, by simp [hrejected]⟩ trivial
  · rename_i unitId response txnId hunwrap
    have hdecode := Client.decodeResponse_value hunwrap
    rw [← finish_safe_iff hop]
    constructor
    · rintro ⟨out, s', hrun, hsound⟩
      obtain ⟨out', hfinish⟩ := op.finish_total (Client.responseResult response)
      rw [run_received hsend hsent hrecv hdecode hfinish] at hrun
      cases hrun
      refine ⟨out, hfinish, fun hvalue => ?_⟩
      obtain ⟨hfits, unitId', response', txnId', hunwrap', hexpects⟩ := hsound hvalue
      rw [hunwrap] at hunwrap'
      cases hunwrap'
      exact ⟨hfits, hexpects⟩
    · rintro ⟨out, hfinish, hsound⟩
      refine ⟨out, _, run_received hsend hsent hrecv hdecode hfinish, fun hvalue => ?_⟩
      exact ⟨(hsound hvalue).1, unitId, response, txnId, hunwrap, (hsound hvalue).2⟩

/-- The answer to a read of one register. -/
theorem validates_one_register :
    (readHoldingRegisters 1 0 1).Validates (answering [0, 1, 0, 0, 0, 5, 1, 3, 2, 0, 7]) ⟨{}, ()⟩
      [0, 1, 0, 0, 0, 5, 1, 3, 2, 0, 7] := by
  have hop : (readHoldingRegisters 1 0 1).AccessesRegisters := trivial
  have hsent : VoidResult.ok.hasValue = true := rfl
  refine (validates_iff (s := ⟨{}, ()⟩) hop rfl hsent rfl).mpr ?_
  exact .inr (.inr ⟨⟨rfl, 2, [0, 7], rfl, rfl⟩, by decide⟩)

/-- The same frame passes for the answer to a read of two registers, and for the echo of a
write. -/
theorem one_register_for_two :
    ¬(readHoldingRegisters 1 0 2).Validates (answering [0, 1, 0, 0, 0, 5, 1, 3, 2, 0, 7]) ⟨{}, ()⟩
      [0, 1, 0, 0, 0, 5, 1, 3, 2, 0, 7] ∧
    ¬(writeSingleRegister 1 0 7).Validates (answering [0, 1, 0, 0, 0, 5, 1, 3, 2, 0, 7]) ⟨{}, ()⟩
      [0, 1, 0, 0, 0, 5, 1, 3, 2, 0, 7] := by
  constructor
  · rintro ⟨out, s', hrun, hsound⟩
    have hregs :
      (readHoldingRegisters 1 0 2).run (answering [0, 1, 0, 0, 0, 5, 1, 3, 2, 0, 7]) ⟨{}, ()⟩ =
        .ok (.registers (.value [7]), ⟨({} : Client).advance, ()⟩) := rfl
    rw [hregs] at hrun
    cases hrun
    obtain ⟨hfits, -⟩ := hsound rfl
    cases hfits
  · rintro ⟨out, s', hrun, hsound⟩
    have hdone :
      (writeSingleRegister 1 0 7).run (answering [0, 1, 0, 0, 0, 5, 1, 3, 2, 0, 7]) ⟨{}, ()⟩ =
        .ok (.done .ok, ⟨({} : Client).advance, ()⟩) := rfl
    rw [hdone] at hrun
    cases hrun
    obtain ⟨-, unitId, response, txnId, hunwrap, hfc, -⟩ := hsound rfl
    have hread : FrameCodec.unwrapTcp (.ofList [0, 1, 0, 0, 0, 5, 1, 3, 2, 0, 7]) =
        .ok (.value (1, .makeStandard .readHoldingRegisters [2, 0, 7], 1)) := rfl
    rw [hread] at hunwrap
    cases hunwrap
    exact absurd hfc (by decide)

end Operation

end ModbusPp

import ModbusPp.Client.Authentication
import ModbusPp.Client.Operation
import ModbusPp.RegisterMap.BatchAnswers

/-! Batch reads over the wire, with the request as it was put together and with the request
as `optimized` makes it. The server of this library does not answer batch reads, so the peer
is any that answers them from its registers. -/

namespace ModbusPp

open Foundation BatchRequest BatchResponse

/-- The peer answers a batch read that reaches it from its memory. -/
def AnswersBatches {τ : Type} (T : Transport τ) (mem : ℕ → UInt16) (timeout : ℕ) (net : τ) : Prop :=
  ∀ frame unitId pdu txnId request,
    FrameCodec.unwrapTcp (.ofList frame) = .ok (.value (unitId, pdu, txnId)) →
    pdu.extHeader.map (·.extFunctionCode) = some .batchRead →
    BatchRequest.deserialize (.ofList pdu.payload) = .ok (.value request) →
    ∃ net₁ net₂, T.send frame net = .ok (.ok, net₁) ∧
      T.receive timeout net₁ =
        .ok (.value (Client.answerFrame unitId .batchRead (answerFrom mem request).serialize txnId),
          net₂)

namespace Client

variable {now : Timestamp} {request : BatchRequest}

theorem unwrapTcp_batchReadRequest (config : ClientConfig) (now : Timestamp)
    (hlen : 6 * request.items.length ≤ 65515) (unit : UInt8) (txnId : UInt16) :
    FrameCodec.unwrapTcp
      (.ofList (FrameCodec.wrapTcp unit (batchReadRequest config now request) txnId)) =
      .ok (.value (unit, batchReadRequest config now request, txnId)) := by
  have hsize := BatchRequest.length_serialize request
  have hwire : (batchReadRequest config now request).OnWire :=
    PDU.makeExtended_onWire rfl
      (by rw [show FrameFlag.none.has .hasTimestamp = false by decide]; nofun)
      (by rw [show FrameFlag.none.has .hasHMAC = false by decide]; nofun) (by omega)
  have hround : (batchReadRequest config now request).RoundTrips := by
    rw [PDU.RoundTrips, PDU.deserialize_ofList, PDU.parse_serialize hwire
      (show FunctionCode.extended ≠ _ by decide)]
  have hpdu : (batchReadRequest config now request).serialize.length ≤
      request.serialize.length + 17 :=
    PDU.length_serialize_unsigned _ _
  exact FrameCodec.unwrapTcp_of_le unit txnId hround (by omega)

end Client

namespace Operation

variable {τ : Type} {T : Transport τ} {mem : ℕ → UInt16} {s : Running τ} {request : BatchRequest}

theorem batchRead_answered (hpeer : AnswersBatches T mem s.client.config.defaultTimeout s.net)
    (hasked : 6 * request.items.length ≤ 65515) (hfits : weight 5 2 request.items ≤ 65523)
    (now : Timestamp) (unit : UInt8) :
    ∃ net, (batchRead now unit request).run T s =
      .ok (.batch (.value (answerFrom mem request)), ⟨s.client.advance, net⟩) := by
  have hwhole : BatchRequest.deserialize (.ofList request.serialize) = .ok (.value request) := by
    have hrun := BatchRequest.yields_grammar request (by omega) []
    rw [List.append_nil] at hrun
    rw [BatchRequest.deserialize_ofList, hrun]
    rfl
  have hanswer : BatchResponse.deserialize (.ofList (answerFrom mem request).serialize) =
      .ok (.value (answerFrom mem request)) := by
    have hrun := BatchResponse.yields_grammar
      (encodable_answerFrom mem (show request.items.length ≤ 65535 by omega)) []
    rw [List.append_nil, plain_answerFrom] at hrun
    rw [BatchResponse.deserialize_ofList, hrun]
    rfl
  have hreached :=
    Client.unwrapTcp_batchReadRequest s.client.config now hasked unit s.client.nextTransactionId
  have hpayload :
    (Client.batchReadRequest s.client.config now request).payload = request.serialize := rfl
  rw [← hpayload] at hwhole
  obtain ⟨net₁, net₂, hsend, hrecv⟩ := hpeer _ _ _ _ _ hreached rfl hwhole
  have hframe : T.send ((batchRead now unit request).frame s.client) s.net = .ok (.ok, net₁) :=
    hsend
  have hdecode := Client.decodeResponse_answerFrame unit .batchRead
    (show (answerFrom mem request).serialize.length ≤ 65525 by
      rw [length_serialize_answerFrom mem request.items]; omega) s.client.nextTransactionId
  refine ⟨net₂, run_received hframe rfl hrecv hdecode ?_⟩
  simp only [finish, Client.batchReadResult, PDU.makeExtended, hanswer, ok_bind, pure_eq_ok]

/-- A request whose frame and whose answer fit can be optimised without loss: both requests
succeed, the optimised one with no more items and no more registers, and whatever the
plain one reads is a slice of what the optimised one reads. -/
theorem batchRead_optimized {sort : List BatchItem → List BatchItem} (hsort : SortsByStart sort)
    (hbelow : ∀ item ∈ request.items, Below item) (hasked : 6 * request.items.length ≤ 65515)
    (hfits : weight 5 2 request.items ≤ 65523)
    (hpeer : AnswersBatches T mem s.client.config.defaultTimeout s.net)
    (now : Timestamp) (unit : UInt8) :
    ∃ merged net net',
      (batchRead now unit request).run T s =
        .ok (.batch (.value (answerFrom mem request)), ⟨s.client.advance, net⟩) ∧
      (batchRead now unit (optimized sort request)).run T s =
        .ok (.batch (.value merged), ⟨s.client.advance, net'⟩) ∧
      (optimized sort request).totalRegisters ≤ request.totalRegisters ∧
      merged.results.length ≤ request.items.length ∧ merged.allSucceeded = true ∧
      ∀ item ∈ (answerFrom mem request).results, ∃ r ∈ merged.results, SliceOf item r := by
  have hcondenses := optimized_condenses hsort hbelow
  have hlen := hcondenses.length_le
  have hweight := hcondenses.weight_le 5 2
  have hregisters : registerCount (optimized sort request).items ≤ registerCount request.items :=
    hcondenses.weight_le 0 1
  have htotal : registerCount request.items ≤ weight 5 2 request.items :=
    List.sum_le_sum fun item _ => by omega
  obtain ⟨net, hplain⟩ := batchRead_answered hpeer hasked hfits now unit
  have hasked' : 6 * (optimized sort request).items.length ≤ 65515 := by omega
  obtain ⟨net', hmerged⟩ := batchRead_answered hpeer hasked' (by omega) now unit
  refine ⟨_, net, net', hplain, hmerged, ?_, ?_, allSucceeded_answerFrom mem _,
    answerFrom_slices hcondenses mem⟩
  · rw [UInt16.le_iff_toNat_le, toNat_totalRegisters, toNat_totalRegisters,
      Nat.mod_eq_of_lt (by omega), Nat.mod_eq_of_lt (by omega)]
    exact hregisters
  · rw [answerFrom, List.length_map]
    exact hlen

/-- A peer that takes frames in and answers them one by one. -/
def batchPeer (mem : ℕ → UInt16) : Transport (List (List UInt8)) where
  send frame net := return (.ok, net ++ [frame])
  receive _ net :=
    match net with
    | [] => return (.fail .timeoutExpired, [])
    | frame :: net => do
      match ← FrameCodec.unwrapTcp (.ofList frame) with
      | .failure ec => return (.failure ec, net)
      | .value (unitId, pdu, txnId) =>
        if pdu.extHeader.map (·.extFunctionCode) = some .batchRead then
          match ← BatchRequest.deserialize (.ofList pdu.payload) with
          | .failure ec => return (.failure ec, net)
          | .value request =>
            return (.value
              (Client.answerFrame unitId .batchRead (answerFrom mem request).serialize txnId), net)
        else return (.fail .timeoutExpired, net)

theorem answersBatches_batchPeer (mem : ℕ → UInt16) (timeout : ℕ) :
    AnswersBatches (batchPeer mem) mem timeout [] := by
  intro frame unitId pdu txnId request hunwrap hext hrequest
  refine ⟨[frame], [], rfl, ?_⟩
  simp only [batchPeer, hunwrap, ok_bind, hext, if_true, hrequest, pure_eq_ok]

/-- Two ranges that touch, read as one. -/
theorem batchRead_optimized_touching : ∃ merged s',
    (batchRead ⟨0⟩ 1 (optimized sortByStart ⟨[⟨12, 3, .uint16, ⟨0⟩⟩, ⟨10, 2, .uint16, ⟨0⟩⟩]⟩)).run
      (batchPeer .ofNat)
      ⟨{}, []⟩ = .ok (.batch (.value merged), s') ∧
    ∃ r ∈ merged.results, SliceOf ⟨12, [12, 13, 14], .none⟩ r := by
  have hasked : 6 * (⟨[⟨12, 3, .uint16, ⟨0⟩⟩, ⟨10, 2, .uint16, ⟨0⟩⟩]⟩ : BatchRequest).items.length ≤
    65515 := by decide
  obtain ⟨merged, net, net', -, hrun, -, -, -, hslices⟩ :=
    batchRead_optimized (s := ⟨{}, []⟩) sortByStart_sorts
    (by decide) hasked (by decide) (answersBatches_batchPeer .ofNat _) ⟨0⟩ 1
  exact ⟨merged, _, hrun, hslices _ (by decide)⟩

end Operation

end ModbusPp

import ModbusPp.Client.Authentication
import ModbusPp.Client.Replies

/-! The redundant lengths on the wire. A register list travels with a byte count of one
byte and, in a write, a quantity. The writers cut the count to its byte whatever the list,
and the server's write branch passes on all the registers there are and echoes the
quantity without a look at either. -/

namespace ModbusPp

open Foundation TransportEvent

/-- The frame of a multiple write: its byte count is the number of data bytes behind it and
twice its quantity. -/
def WriteConsistent (frame : List UInt8) : Prop :=
  ∃ q₁ q₀ byteCount data, frame.drop 10 = q₁ :: q₀ :: byteCount :: data ∧
    byteCount.toNat = data.length ∧ byteCount.toNat = 2 * (word q₁ q₀).toNat

/-- The frame of a read response: its byte count is the number of data bytes behind it. -/
def ReadConsistent (frame : List UInt8) : Prop :=
  ∃ byteCount data, frame.drop 8 = byteCount :: data ∧ byteCount.toNat = data.length

/-- The function code of a TCP frame. -/
def frameCode (frame : List UInt8) : Option UInt8 := frame[7]?

/-! ### The two writers -/

theorem writeConsistent_request (unit : UInt8) (addr : UInt16)
    (values : List UInt16) (client : Client) :
    WriteConsistent (client.requestFrame unit (Client.writeMultipleRequest addr values)) ↔
      values.length ≤ 127 := by
  have hdrop : (client.requestFrame unit (Client.writeMultipleRequest addr values)).drop 10 =
      hiByte (.ofNat values.length) :: loByte (.ofNat values.length) ::
        UInt8.ofNat ((UInt16.ofNat values.length).toNat * 2) :: registerBytes values := rfl
  have hcount : (UInt16.ofNat values.length).toNat = values.length % 65536 := UInt16.toNat_ofNat'
  have hbyte : (UInt8.ofNat ((UInt16.ofNat values.length).toNat * 2)).toNat =
      values.length % 65536 * 2 % 256 := by
    rw [UInt8.toNat_ofNat', hcount]
  rw [WriteConsistent, hdrop]
  constructor
  · rintro ⟨q₁, q₀, byteCount, data, heq, hdata, -⟩
    simp only [List.cons.injEq] at heq
    obtain ⟨-, -, rfl, rfl⟩ := heq
    rw [hbyte, length_registerBytes] at hdata
    omega
  · intro hle
    refine ⟨_, _, _, _, rfl, ?_, ?_⟩
    · rw [hbyte, length_registerBytes]
      omega
    · rw [hbyte, word_bytes, hcount]
      omega

theorem readConsistent_response (unit : UInt8) (regs : List UInt16) (txnId : UInt16) :
    ReadConsistent (FrameCodec.wrapTcp unit (Server.registersResponse regs) txnId) ↔
      regs.length ≤ 127 := by
  have hdrop : (FrameCodec.wrapTcp unit (Server.registersResponse regs) txnId).drop 8 =
      UInt8.ofNat (regs.length * 2) :: registerBytes regs := rfl
  have hbyte : (UInt8.ofNat (regs.length * 2)).toNat = regs.length * 2 % 256 := UInt8.toNat_ofNat'
  rw [ReadConsistent, hdrop]
  constructor
  · rintro ⟨byteCount, data, heq, hdata⟩
    obtain ⟨rfl, rfl⟩ := List.cons.inj heq
    rw [hbyte, length_registerBytes] at hdata
    omega
  · intro hle
    refine ⟨_, _, rfl, ?_⟩
    rw [hbyte, length_registerBytes]
    omega

namespace Client

variable {τ : Type} {T : Transport τ}

theorem writeMultipleRegisters_sends {unit : UInt8} {addr : UInt16}
    {values : List UInt16} {result : VoidResult} {s s' : Running (τ × List TransportEvent)}
    (h : writeMultipleRegisters T.traced unit addr values s = .ok (result, s')) :
    sentFrames s'.net.2 =
      sentFrames s.net.2 ++ [s.client.requestFrame unit (writeMultipleRequest addr values)] := by
  obtain ⟨⟨answer, s₁⟩, htransact, h⟩ := bind_eq_ok.mp h
  cases h
  obtain ⟨-, events, htrace, hexchanged⟩ := transact_traced htransact
  rw [htrace, sentFrames_append, hexchanged.sentFrames]

end Client

namespace Server

variable {σ τ : Type} {server : Server σ} {T : Transport τ} {request : PDU} {txnId : UInt16}

/-- A handler call and the response that follows it. -/
inductive Answer (server : Server σ) (request : PDU) : HandlerCall → PDU → Prop
  | registers (addr count : UInt16) (regs : List UInt16)
      (hfc : request.functionCode = .readHoldingRegisters) :
    Answer server request (.read addr count (.value regs)) (registersResponse regs)
  | refused (addr count : UInt16) (ec : StdErrorCode)
      (hfc : request.functionCode = .readHoldingRegisters) :
    Answer server request (.read addr count (.failure ec))
      (exceptionResponse request.functionCode ec)
  | single (addr value : UInt16) (verdict : VoidResult) (data : List UInt8)
    (hfc : request.functionCode = .writeSingleRegister) :
    Answer server request (.write addr [value] verdict) (.makeStandard .writeSingleRegister data)
  | multiple {a₁ a₀ c₁ c₀ byteCount : UInt8} {data : List UInt8} (verdict : VoidResult)
    (hfc : request.functionCode = .writeMultipleRegisters) (hhandler : server.writeHandler.isSome)
    (hpayload : request.payload = a₁ :: a₀ :: c₁ :: c₀ :: byteCount :: data) :
    Answer server request (.write (word a₁ a₀) (registersOf data) verdict)
      (.makeStandard .writeMultipleRegisters [a₁, a₀, c₁, c₀])

theorem handleRequest_answer (server : Server σ) (T : Transport τ)
    (request : PDU) (txnId : UInt16) (s : Serving σ τ) :
    server.handleRequest T request txnId s = .ok s ∨
    ∃ call device response, server.Answer request call response ∧
      server.handleRequest T request txnId s =
        server.reply T response txnId { s with device, calls := s.calls ++ [call] } := by
  unfold handleRequest
  split_ifs with hread hsingle hmultiple
  · cases server.readHandler with
    | none => exact .inl rfl
    | some handler =>
      dsimp only
      unfold handleRead
      split
      · rename_i a₁ a₀ c₁ c₀ rest hpayload
        rcases handler (word a₁ a₀) (word c₁ c₀) s.device with ⟨regs | ec, device⟩
        · exact .inr ⟨_, device, _, .registers (word a₁ a₀) (word c₁ c₀) regs hread, rfl⟩
        · exact .inr ⟨_, device, _, .refused (word a₁ a₀) (word c₁ c₀) ec hread, rfl⟩
      · exact .inl rfl
  · cases server.writeHandler with
    | none => exact .inl rfl
    | some handler =>
      dsimp only
      unfold handleWriteSingle
      split
      · rename_i a₁ a₀ v₁ v₀ rest hpayload
        exact .inr ⟨_, _, _, .single (word a₁ a₀) (word v₁ v₀) _ [a₁, a₀, v₁, v₀] hsingle, rfl⟩
      · exact .inl rfl
  · cases hwrite : server.writeHandler with
    | none => exact .inl rfl
    | some handler =>
      dsimp only
      unfold handleWriteMultiple
      split
      · rename_i a₁ a₀ c₁ c₀ byteCount data hpayload
        exact .inr ⟨_, _, _, .multiple _ hmultiple (by rw [hwrite]; rfl) hpayload, rfl⟩
      · exact .inl rfl
  · exact .inl rfl

/-- From `s` to `s'` nothing was called or sent, or one call was made and its response sent. -/
def Exchange (server : Server σ) (request : PDU) (txnId : UInt16)
    (s s' : Serving σ (τ × List TransportEvent)) : Prop :=
  s'.calls = s.calls ∧ sentFrames s'.net.2 = sentFrames s.net.2 ∨
  ∃ call response, server.Answer request call response ∧ s'.calls = s.calls ++ [call] ∧
    sentFrames s'.net.2 = sentFrames s.net.2 ++ [FrameCodec.wrapTcp server.unitId response txnId]

theorem handleRequest_exchange {s s' : Serving σ (τ × List TransportEvent)}
    (h : server.handleRequest T.traced request txnId s = .ok s') :
    server.Exchange request txnId s s' := by
  rcases handleRequest_answer server T.traced request txnId s with hnone |
    ⟨call, device, response, hanswer, hreply⟩
  · rw [hnone] at h
    cases h
    exact .inl ⟨rfl, rfl⟩
  · rw [hreply] at h
    obtain ⟨⟨sent, net⟩, hsend, h⟩ := bind_eq_ok.mp h
    cases h
    have htrace := (Transport.traced_send hsend).2
    refine .inr ⟨call, response, hanswer, rfl, ?_⟩
    rw [htrace, sentFrames_append, sentFrames_sent, sentFrames_nil]

theorem processOne_exchange {handled : Bool} {s s' : Serving σ (τ × List TransportEvent)}
    (h : server.processOne T.traced s = .ok (handled, s')) :
    ∃ request txnId, server.Exchange request txnId s s' := by
  obtain ⟨⟨recv, net⟩, hreceive, h⟩ := bind_eq_ok.mp h
  obtain ⟨-, htrace⟩ := Transport.traced_receive hreceive
  have hsame : sentFrames net.2 = sentFrames s.net.2 := by simp [htrace]
  have hnone : server.Exchange ⟨⟨0⟩, none, [], none⟩ 0 s { s with net } := .inl ⟨rfl, hsame⟩
  cases recv with
  | failure ec =>
    cases h
    exact ⟨_, _, hnone⟩
  | value bytes =>
    obtain ⟨unwrapped, -, h⟩ := bind_eq_ok.mp h
    match unwrapped with
    | .failure ec =>
      cases h
      exact ⟨_, _, hnone⟩
    | .value (unit, request, txnId) =>
      dsimp only at h
      split_ifs at h with hunit
      · cases h
        exact ⟨_, _, hnone⟩
      · obtain ⟨s₁, hrequest, h⟩ := bind_eq_ok.mp h
        cases h
        refine ⟨request, txnId, ?_⟩
        rw [Exchange, ← hsame]
        exact handleRequest_exchange hrequest

theorem Answer.readConsistent_iff {call : HandlerCall} {response : PDU}
    (h : server.Answer request call response) (unit : UInt8) (txnId : UInt16) :
    (frameCode (FrameCodec.wrapTcp unit response txnId) = some 0x03 →
        ReadConsistent (FrameCodec.wrapTcp unit response txnId)) ↔
      ∀ addr count regs, call = .read addr count (.value regs) → regs.length ≤ 127 := by
  cases h with
  | registers addr count regs hfc =>
    have hcode : frameCode (FrameCodec.wrapTcp unit (registersResponse regs) txnId) = some 0x03 :=
      rfl
    rw [hcode, readConsistent_response]
    simp
  | refused addr count ec hfc =>
    have hcode : frameCode (FrameCodec.wrapTcp unit (exceptionResponse request.functionCode ec)
      txnId) = some 0x83 := by
      rw [hfc]; rfl
    rw [hcode]
    simp
  | single addr value verdict data hfc =>
    have hcode : frameCode
      (FrameCodec.wrapTcp unit (.makeStandard .writeSingleRegister data) txnId) = some 0x06 := rfl
    rw [hcode]
    simp
  | @multiple a₁ a₀ c₁ c₀ byteCount data verdict hfc hhandler hpayload =>
    have hcode : frameCode
      (FrameCodec.wrapTcp unit (.makeStandard .writeMultipleRegisters [a₁, a₀, c₁, c₀]) txnId) =
        some 0x10 := rfl
    rw [hcode]
    simp

end Server

/-- The counts of what goes out are right exactly up to 127 registers: in the frames of a
multiple write, and in the read responses of a server's turn, by the lists its handler gave. -/
theorem sent_counts_consistent_iff {σ τ : Type} (T : Transport τ) (server : Server σ) :
    (∀ unit addr values result (s s' : Running (τ × List TransportEvent)),
      Client.writeMultipleRegisters T.traced unit addr values s = .ok (result, s') →
        ∃ frames, sentFrames s'.net.2 = sentFrames s.net.2 ++ frames ∧
          ((∀ frame ∈ frames, WriteConsistent frame) ↔ values.length ≤ 127)) ∧
    (∀ handled (s s' : Serving σ (τ × List TransportEvent)),
      server.processOne T.traced s = .ok (handled, s') →
      ∃ calls frames, s'.calls = s.calls ++ calls ∧
        sentFrames s'.net.2 = sentFrames s.net.2 ++ frames ∧
        ((∀ frame ∈ frames, frameCode frame = some 0x03 → ReadConsistent frame) ↔
          ∀ addr count regs, .read addr count (.value regs) ∈ calls → regs.length ≤ 127)) := by
  constructor
  · intro unit addr values result s s' h
    refine ⟨_, Client.writeMultipleRegisters_sends h, ?_⟩
    simp only [List.mem_singleton, forall_eq, writeConsistent_request]
  · intro handled s s' h
    obtain ⟨request, txnId, ⟨hcalls, hsent⟩ | ⟨call, response, hanswer, hcalls, hsent⟩⟩ :=
      Server.processOne_exchange h
    · exact ⟨[], [], by simp [hcalls], by simp [hsent], by simp⟩
    · refine ⟨_, _, hcalls, hsent, ?_⟩
      simp only [List.mem_singleton, forall_eq, eq_comm (b := call)]
      exact hanswer.readConsistent_iff server.unitId txnId

/-- A write of 128 registers goes out with a byte count of zero. -/
theorem sent_count_wraps :
    ¬∀ (unit : UInt8) (addr : UInt16) (values : List UInt16) (result : VoidResult)
      (s s' : Running (List (List UInt8) × List TransportEvent)),
      Client.writeMultipleRegisters Transport.replies.traced unit addr values s = .ok (result, s') →
        ∀ frame ∈ sentFrames s'.net.2, frame ∉ sentFrames s.net.2 → WriteConsistent frame := by
  intro hall
  have hrun : Client.writeMultipleRegisters Transport.replies.traced 1 0
    (List.replicate 128 0) ⟨{}, [], []⟩ =
      .ok (.fail .timeoutExpired, ⟨Client.advance {}, [],
        [.sent (Client.requestFrame {} 1 (Client.writeMultipleRequest 0 (List.replicate 128 0)))
          .ok,
          .received (.fail .timeoutExpired)]⟩) := rfl
  have hconsistent :=
    hall 1 0 (List.replicate 128 0) _ _ _ hrun _ (List.mem_singleton_self _) List.not_mem_nil
  rw [writeConsistent_request, List.length_replicate] at hconsistent
  exact absurd hconsistent (by decide)

/-! ### Acknowledged writes -/

namespace Server

variable {σ : Type}

/-- Quantity, byte count and data of a multiple write agree. -/
def ConsistentWrite (payload : List UInt8) : Prop :=
  ∃ a₁ a₀ q₁ q₀ byteCount data, payload = a₁ :: a₀ :: q₁ :: q₀ :: byteCount :: data ∧
    byteCount.toNat = data.length ∧ byteCount.toNat = 2 * (word q₁ q₀).toNat

/-- The data bytes that the byte count of a multiple write announces. -/
def Announced (payload data : List UInt8) : Prop :=
  ∃ head byteCount rest, payload = head ++ byteCount :: (data ++ rest) ∧ head.length = 4 ∧
    data.length = byteCount.toNat

/-- The quantity in the response is that of the registers of the call, and these are the
announced data bytes. -/
def Acknowledges (payload : List UInt8) (call : HandlerCall) (frame : List UInt8) : Prop :=
  ∃ addr values verdict q₁ q₀, call = .write addr values verdict ∧ frame.drop 10 = [q₁, q₀] ∧
    (word q₁ q₀).toNat = values.length ∧ Announced payload (registerBytes values)

/-- What a multiple write came to: the lengths agree or no call was made, and a normal
response acknowledges the one call. -/
def Truthful (payload : List UInt8) (calls : List HandlerCall)
    (frames : List (List UInt8)) : Prop :=
  (¬ConsistentWrite payload → calls = []) ∧
  ∀ frame ∈ frames, frameCode frame = some 0x10 → ∃ call, calls = [call] ∧
    Acknowledges payload call frame

/-- Over every transport the server's turn on the frame tells the truth about its write. -/
def WriteTruthful (server : Server σ) (device : σ) (bytes payload : List UInt8) : Prop :=
  ∀ (τ : Type) (T : Transport τ) (net net' : τ) (events : List TransportEvent) (calls : List HandlerCall),
    T.receive 10 net = .ok (.value bytes, net') →
      ∀ handled s', server.processOne T.traced ⟨(net, events), device, calls⟩ = .ok (handled, s') →
        ∃ made frames, s'.calls = calls ++ made ∧
          sentFrames s'.net.2 = sentFrames events ++ frames ∧
          Truthful payload made frames

theorem registerBytes_registersOf {data : List UInt8} (heven : data.length % 2 = 0) :
    registerBytes (registersOf data) = data := by
  induction data using registersOf.induct with
  | case1 hi lo rest ih =>
    rw [registersOf, registerBytes_cons, hiByte_word, loByte_word, ih (by simp at heven; omega)]
  | case2 data hshort =>
    rcases data with _ | ⟨hi, _ | ⟨lo, rest⟩⟩
    · rfl
    · simp at heven
    · exact (hshort hi lo rest rfl).elim

theorem truthful_of_consistent {payload : List UInt8} {unit a₁ a₀ q₁ q₀ byteCount : UInt8}
    {data : List UInt8} {txnId : UInt16} {verdict : VoidResult}
    (hpayload : payload = a₁ :: a₀ :: q₁ :: q₀ :: byteCount :: data)
    (hconsistent : ConsistentWrite payload) :
    Truthful payload [.write (word a₁ a₀) (registersOf data) verdict]
      [FrameCodec.wrapTcp unit (.makeStandard .writeMultipleRegisters [a₁, a₀, q₁, q₀]) txnId] := by
  refine ⟨fun h => absurd hconsistent h, fun frame hframe _ => ⟨_, rfl, ?_⟩⟩
  obtain rfl := List.mem_singleton.mp hframe
  obtain ⟨b₁, b₀, p₁, p₀, count, data', heq, hdata, hquantity⟩ := hconsistent
  rw [hpayload] at heq
  simp only [List.cons.injEq] at heq
  obtain ⟨-, -, rfl, rfl, rfl, rfl⟩ := heq
  have hbytes : registerBytes (registersOf data) = data := registerBytes_registersOf (by omega)
  refine ⟨_, _, _, q₁, q₀, rfl, rfl, ?_, [a₁, a₀, q₁, q₀], byteCount, [], ?_, rfl, ?_⟩
  · rw [length_registersOf]
    omega
  · rw [hbytes, List.append_nil, hpayload]
    rfl
  · rw [hbytes, hdata]

/-- A write of five bytes or more is passed to the handler, here over a transport that takes
every frame. -/
theorem write_called {server : Server σ} (device : σ) {bytes : List UInt8}
    {unit : UInt8} {request : PDU} {txnId : UInt16}
    (hunwrap : FrameCodec.unwrapTcp (.ofList bytes) = .ok (.value (unit, request, txnId)))
    (hunit : server.Addressed unit) (hfc : request.functionCode = .writeMultipleRegisters)
    (hhandler : server.writeHandler ≠ none) (hlen : 5 ≤ request.payload.length) :
    ∃ s', server.processOne Transport.replies.traced ⟨([bytes], []), device, []⟩ = .ok (true, s') ∧
      s'.calls ≠ [] := by
  obtain ⟨handler, hhandler⟩ := Option.ne_none_iff_exists'.mp hhandler
  match hpayload : request.payload, hlen with
  | a₁ :: a₀ :: q₁ :: q₀ :: byteCount :: data, _ =>
    rw [processOne_takes (traced_received rfl) hunwrap hunit,
      handleRequest_of_writeMultiple hhandler hfc, handleWriteMultiple, hpayload]
    exact ⟨_, rfl, List.cons_ne_nil _ _⟩

/-- The server tells the truth about a multiple write exactly if it has no write handler, the
payload is too short for a write, or the three lengths in it agree. -/
theorem write_truthful_iff (server : Server σ) (device : σ) {bytes : List UInt8}
    {unit : UInt8} {request : PDU} {txnId : UInt16}
    (hunwrap : FrameCodec.unwrapTcp (.ofList bytes) = .ok (.value (unit, request, txnId)))
    (hunit : server.Addressed unit) (hfc : request.functionCode = .writeMultipleRegisters) :
    server.WriteTruthful device bytes request.payload ↔
      server.writeHandler = none ∨ request.payload.length < 5 ∨
      ConsistentWrite request.payload := by
  constructor
  · intro htruthful
    by_contra hno
    push Not at hno
    obtain ⟨hhandler, hlen, hinconsistent⟩ := hno
    obtain ⟨s', hturn, hmade⟩ := write_called device hunwrap hunit hfc hhandler hlen
    obtain ⟨made, frames, hcalls, -, htruth⟩ :=
      htruthful _ Transport.replies [bytes] [] [] [] rfl _ _ hturn
    rw [htruth.1 hinconsistent] at hcalls
    exact hmade hcalls
  · rintro hcond τ T net net' events calls hreceive handled s' h
    rw [processOne_takes (traced_received hreceive) hunwrap hunit] at h
    obtain ⟨s₁, hrequest, h⟩ := bind_eq_ok.mp h
    cases h
    rcases handleRequest_exchange hrequest with ⟨hcalls, hsent⟩ |
      ⟨call, response, hanswer, hcalls, hsent⟩
    · refine ⟨[], [], by simp [hcalls], by simp [hsent], fun _ => rfl, ?_⟩
      simp
    · refine ⟨_, _, hcalls, by simpa using hsent, ?_⟩
      cases hanswer with
      | registers addr count regs hread => rw [hread] at hfc; cases hfc
      | refused addr count ec hread => rw [hread] at hfc; cases hfc
      | single addr value verdict data hsingle => rw [hsingle] at hfc; cases hfc
      | multiple verdict _ hhandler hpayload =>
        rcases hcond with hnone | hshort | hconsistent
        · simp [hnone] at hhandler
        · rw [hpayload] at hshort
          simp only [List.length_cons] at hshort
          omega
        · exact truthful_of_consistent hpayload hconsistent

/-- A write of one register to the server of unit 1. -/
theorem write_truthful_one_register :
    bare.WriteTruthful () [0, 1, 0, 0, 0, 9, 1, 0x10, 0, 0, 0, 1, 2, 0, 7]
      [0, 0, 0, 1, 2, 0, 7] := by
  have hunwrap : FrameCodec.unwrapTcp (.ofList [0, 1, 0, 0, 0, 9, 1, 0x10, 0, 0, 0, 1, 2, 0, 7]) =
      .ok (.value (1, .makeStandard .writeMultipleRegisters [0, 0, 0, 1, 2, 0, 7], 1)) := rfl
  exact (write_truthful_iff bare () hunwrap (.inl rfl) rfl).mpr
    (.inr (.inr ⟨0, 0, 0, 1, 2, [0, 7], rfl, rfl, by decide⟩))

/-- A quantity of five and one register: the handler is called for the one, and five are
acknowledged. -/
theorem short_write_acknowledged :
    ¬∀ (server : Server Unit) (bytes : List UInt8) (unit : UInt8) (request : PDU) (txnId : UInt16),
      FrameCodec.unwrapTcp (.ofList bytes) = .ok (.value (unit, request, txnId)) →
        server.Addressed unit →
        request.functionCode = .writeMultipleRegisters →
          server.WriteTruthful () bytes request.payload := by
  intro hall
  have htruthful := hall bare [0, 1, 0, 0, 0, 9, 1, 0x10, 0, 0, 0, 5, 2, 0, 7] 1
    (.makeStandard .writeMultipleRegisters [0, 0, 0, 5, 2, 0, 7]) 1 rfl (.inl rfl) rfl
  obtain ⟨made, frames, hcalls, hsent, -, hacknowledged⟩ := htruthful _ Transport.replies
    [[0, 1, 0, 0, 0, 9, 1, 0x10, 0, 0, 0, 5, 2, 0, 7]] [] [] [] rfl true _ rfl
  have hframes : frames = [[0, 1, 0, 0, 0, 6, 1, 0x10, 0, 0, 0, 5]] := hsent.symm
  have hmade : made = [.write 0 [7] .ok] := hcalls.symm
  rw [hframes, hmade] at hacknowledged
  obtain ⟨call, hcall, addr, values, verdict, q₁, q₀, rfl, hecho, hquantity, -⟩ :=
    hacknowledged _ (List.mem_singleton_self _) rfl
  obtain ⟨-, rfl, -⟩ := HandlerCall.write.inj (List.singleton_inj.mp hcall)
  have hecho : [0, 5] = [q₁, q₀] := hecho
  simp only [List.cons.injEq] at hecho
  obtain ⟨rfl, rfl, -⟩ := hecho
  exact absurd hquantity (by decide)

end Server

end ModbusPp

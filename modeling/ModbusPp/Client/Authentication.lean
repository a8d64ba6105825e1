import ModbusPp.Client.Disclosure
import ModbusPp.Transport.TcpRoundTrip
import ModbusPp.Transport.Traced

/-! The client's side of the handshake against a peer that chooses every answer.
What `authenticate` sends and returns is read off a trace of its exchanges. -/

namespace ModbusPp

open Foundation

namespace Client

variable {τ : Type} {T : Transport τ}

/-- One exchange, as its trace shows it, and what `transact` makes of it. -/
inductive Exchanged (frame : List UInt8) : List TransportEvent → Result PDU → Prop
  | refused {sent : VoidResult} (hsent : sent.hasValue = false) :
    Exchanged frame [.sent frame sent] (.failure sent.error)
  | unanswered {sent : VoidResult} (hsent : sent.hasValue = true) (ec : StdErrorCode) :
    Exchanged frame [.sent frame sent, .received (.failure ec)] (.failure ec)
  | answered {sent : VoidResult} (hsent : sent.hasValue = true) {bytes : List UInt8}
      {result : Result PDU}
    (hdecode : decodeResponse bytes = .ok result) :
    Exchanged frame [.sent frame sent, .received (.value bytes)] result

theorem Exchanged.sentFrames {frame : List UInt8} {events : List TransportEvent}
    {result : Result PDU} (h : Exchanged frame events result) :
    TransportEvent.sentFrames events = [frame] := by
  cases h <;> rfl

theorem Exchanged.answer {frame : List UInt8} {events : List TransportEvent} {pdu : PDU}
    (h : Exchanged frame events (.value pdu)) :
    ∃ sent bytes, events = [.sent frame sent, .received (.value bytes)] ∧
      decodeResponse bytes = .ok (.value pdu) := by
  cases h with
  | answered hsent hdecode => exact ⟨_, _, rfl, hdecode⟩

theorem transact_traced {unit : UInt8} {request : PDU} {s s' : Running (τ × List TransportEvent)}
    {result : Result PDU} (h : transact T.traced unit request s = .ok (result, s')) :
    s'.client = s.client.advance ∧
      ∃ events, s'.net.2 = s.net.2 ++ events ∧
        Exchanged (s.client.requestFrame unit request) events result := by
  obtain ⟨⟨sent, net₁⟩, hsend, h⟩ := bind_eq_ok.mp h
  obtain ⟨-, htrace₁⟩ := Transport.traced_send hsend
  dsimp only at h
  split_ifs at h with hsent
  · cases h
    exact ⟨rfl, _, htrace₁, .refused (by simpa using hsent)⟩
  · obtain ⟨⟨recvResult, net₂⟩, hrecv, h⟩ := bind_eq_ok.mp h
    obtain ⟨-, htrace₂⟩ := Transport.traced_receive hrecv
    rw [htrace₁, List.append_assoc] at htrace₂
    have hsent : sent.hasValue = true := by simpa using hsent
    cases recvResult with
    | failure ec =>
      cases h
      exact ⟨rfl, _, htrace₂, .unanswered hsent ec⟩
    | value bytes =>
      obtain ⟨decoded, hdecode, h⟩ := bind_eq_ok.mp h
      cases h
      exact ⟨rfl, _, htrace₂, .answered hsent hdecode⟩

/-! ### The two halves of the handshake -/

/-- The key store has `sharedSecret` for the unit. -/
def Stored (client : Client) (unit : UInt8) (sharedSecret : List UInt8) : Prop :=
  ∃ getKey, client.config.credentials = some getKey ∧ getKey unit = .value sharedSecret

/-- `payload` answers the challenge: it begins with a nonce and the digest of the
client's nonce and this one. -/
def Proves (compute : KeyedHash) (sharedSecret : List UInt8) (clientNonce serverNonce : Nonce)
    (payload : List UInt8) : Prop :=
  payload.take 48 = serverNonce.toList ++
    (computeAuthChallengeResponse compute clientNonce serverNonce sharedSecret).toList

variable {compute : KeyedHash} {sharedSecret payload : List UInt8}
  {unit : UInt8} {clientNonce serverNonce : Nonce}

theorem proves_iff {h : 48 ≤ payload.length} :
    Proves compute sharedSecret clientNonce serverNonce payload ↔
      serverNonce = Block.slice payload 0 16 (by omega) ∧
      computeAuthChallengeResponse compute clientNonce (Block.slice payload 0 16 (by omega))
        sharedSecret =
        Block.slice payload 16 32 (by omega) := by
  have hsplit : payload.take 48 = payload.take 16 ++ (payload.drop 16).take 32 :=
    List.take_add (l := payload) (i := 16) (j := 32)
  rw [Proves, hsplit]
  constructor
  · intro hpayload
    obtain ⟨hnonce, hdigest⟩ :=
      List.append_inj hpayload (by rw [serverNonce.length_toList, List.length_take]; omega)
    have hserver : serverNonce = Block.slice payload 0 16 (by omega) := by
      apply Block.ext
      rw [Block.slice_toList, List.drop_zero, hnonce]
    subst hserver
    exact ⟨rfl, Block.ext hdigest.symm⟩
  · rintro ⟨rfl, hdigest⟩
    rw [hdigest, Block.slice_toList, Block.slice_toList, List.drop_zero]

theorem not_proves_of_ne (hinj : ∀ a b : Block UInt8 32,
      compute a.toList sharedSecret = compute b.toList sharedSecret → a = b)
    {recordedNonce : Nonce} (hne : recordedNonce ≠ clientNonce) {recordedServerNonce : Nonce}
    (h : Proves compute sharedSecret recordedNonce recordedServerNonce payload)
    (serverNonce : Nonce) :
    ¬Proves compute sharedSecret clientNonce serverNonce payload := by
  intro hproves
  rw [Proves, hproves] at h
  obtain ⟨-, hdigest⟩ :=
    List.append_inj h (by rw [serverNonce.length_toList, recordedServerNonce.length_toList])
  exact hne (Block.append_inj (hinj _ _ (Block.ext hdigest))).1.symm

/-- A failed attempt keeps the session there was, a successful one replaces it. -/
def sessionAfter (before : Option Session) : Result Session → Option Session
  | .failure _ => before
  | .value session => some session

variable {client : Client} {net : τ} {result : Result Session}
  {s s' : Running (τ × List TransportEvent)}

/-- `authenticate` from the answer to its challenge on: without a proof nothing more is
sent, and with one the rest is the second exchange. -/
theorem authenticateRespond_cases
    (h : authenticateRespond T.traced compute unit sharedSecret clientNonce payload s =
      .ok (result, s')) :
    (∃ ec, result = .failure ec ∧ s' = s) ∨
    ∃ serverNonce events step4, Proves compute sharedSecret clientNonce serverNonce payload ∧
      s'.net.2 = s.net.2 ++ events ∧
      Exchanged (s.client.requestFrame unit
        (authResponseRequest (computeAuthResponse compute clientNonce serverNonce sharedSecret)))
          events step4 ∧
      (result = step4.andThen fun pdu =>
        authenticateConfirm (deriveSessionKey compute clientNonce serverNonce sharedSecret)
          pdu.payload) ∧
      s'.client.session = sessionAfter s.client.session result := by
  unfold authenticateRespond at h
  split_ifs at h with hlen
  · cases h
    exact Or.inl ⟨_, rfl, rfl⟩
  dsimp only at h
  split_ifs at h with hmac
  · cases h
    exact Or.inl ⟨_, rfl, rfl⟩
  · obtain ⟨⟨step4, s₁⟩, hstep4, h⟩ := bind_eq_ok.mp h
    obtain ⟨hclient, events, htrace, hexchanged⟩ := transact_traced hstep4
    have hproves :
        Proves compute sharedSecret clientNonce (Block.slice payload 0 16 (by omega)) payload :=
      proves_iff.mpr ⟨rfl, not_not.mp hmac⟩
    refine Or.inr ⟨_, events, step4, hproves, ?_⟩
    dsimp only at h
    split at h
    · rename_i ec hconfirm
      cases h
      exact ⟨htrace, hexchanged, hconfirm.symm, by rw [hclient]; rfl⟩
    · rename_i session hconfirm
      cases h
      exact ⟨htrace, hexchanged, hconfirm.symm, rfl⟩

/-- An attempt either ends before anything but the challenge is sent, or its challenge
was answered with a proof. -/
theorem authenticate_cases
    (h : authenticate T.traced compute clientNonce unit ⟨client, net, []⟩ = .ok (result, s')) :
    (∃ ec, result = .failure ec ∧ s'.client.session = client.session ∧
      ∀ frame ∈ TransportEvent.sentFrames s'.net.2,
      frame = client.requestFrame unit (authChallengeRequest clientNonce)) ∨
    ∃ sharedSecret serverNonce sent bytes pdu events step4, client.Stored unit sharedSecret ∧
      s'.net.2 = .sent (client.requestFrame unit (authChallengeRequest clientNonce)) sent ::
        .received (.value bytes) :: events ∧
      decodeResponse bytes = .ok (.value pdu) ∧
      Proves compute sharedSecret clientNonce serverNonce pdu.payload ∧
      Exchanged (client.advance.requestFrame unit
        (authResponseRequest (computeAuthResponse compute clientNonce serverNonce sharedSecret)))
          events step4 ∧
      (result = step4.andThen fun pdu =>
        authenticateConfirm (deriveSessionKey compute clientNonce serverNonce sharedSecret)
          pdu.payload) ∧
      s'.client.session = sessionAfter client.session result := by
  unfold authenticate at h
  split at h
  · cases h
    exact Or.inl ⟨_, rfl, rfl, fun _ hmem => by cases hmem⟩
  rename_i getKey hcredentials
  split at h
  · cases h
    exact Or.inl ⟨_, rfl, rfl, fun _ hmem => by cases hmem⟩
  rename_i sharedSecret hkey
  obtain ⟨⟨step2, s₁⟩, hstep2, h⟩ := bind_eq_ok.mp h
  obtain ⟨hclient, events, htrace, hexchanged⟩ := transact_traced hstep2
  change s₁.net.2 = events at htrace
  have hsent := hexchanged.sentFrames
  rw [← htrace] at hsent
  cases step2 with
  | failure ec =>
    cases h
    refine Or.inl ⟨_, rfl, by rw [hclient]; rfl, fun frame hmem => ?_⟩
    rwa [hsent, List.mem_singleton] at hmem
  | value pdu =>
    obtain ⟨sent, bytes, rfl, hdecode⟩ := hexchanged.answer
    rcases authenticateRespond_cases h with ⟨ec, hresult, rfl⟩ |
      ⟨serverNonce, events, step4, hproves, htrace', hexchanged', hresult, hsession⟩
    · refine Or.inl ⟨ec, hresult, by rw [hclient]; rfl, fun frame hmem => ?_⟩
      rwa [hsent, List.mem_singleton] at hmem
    · rw [hclient] at hexchanged' hsession
      rw [htrace] at htrace'
      exact Or.inr ⟨sharedSecret, serverNonce, sent, bytes, pdu, events, step4,
        ⟨getKey, hcredentials, hkey⟩, htrace',
        hdecode, hproves, hexchanged', hresult, hsession⟩

/-- The challenge of this attempt was answered with a proof. -/
def Proven (client : Client) (compute : KeyedHash) (unit : UInt8)
    (clientNonce : Nonce) (sharedSecret : List UInt8) (serverNonce : Nonce)
    (trace : List TransportEvent) : Prop :=
  client.Stored unit sharedSecret ∧ ∃ sent bytes pdu events,
    trace = .sent (client.requestFrame unit (authChallengeRequest clientNonce)) sent ::
      .received (.value bytes) :: events ∧
    decodeResponse bytes = .ok (.value pdu) ∧
    Proves compute sharedSecret clientNonce serverNonce pdu.payload

theorem Proves.length_le (h : Proves compute sharedSecret clientNonce serverNonce payload) :
    48 ≤ payload.length := by
  have hlen := congrArg List.length h
  rw [List.length_take, List.length_append, serverNonce.length_toList, Block.length_toList] at hlen
  omega

theorem authResponse_ne_challenge (digest : HMACDigest) (transactionId : UInt16) :
    FrameCodec.wrapTcp unit (authResponseRequest digest) transactionId ≠
      client.requestFrame unit (authChallengeRequest clientNonce) := by
  intro h
  have hlen := congrArg List.length h
  rw [requestFrame, FrameCodec.length_wrapTcp, FrameCodec.length_wrapTcp, authResponseRequest,
    authChallengeRequest, PDU.length_serialize_plain, PDU.length_serialize_plain,
    Block.length_toList, Block.length_toList] at hlen
  omega

theorem authenticate_replayed {sharedSecret : List UInt8}
    (hstored : client.Stored unit sharedSecret)
    (hinj : ∀ a b : Block UInt8 32,
      compute a.toList sharedSecret = compute b.toList sharedSecret → a = b)
    {s s₁ : Running τ} (hclient : s.client = client) {pdu : PDU}
    (hstep2 : transact T unit (authChallengeRequest clientNonce) s = .ok (.value pdu, s₁))
    {recordedNonce : Nonce} (hne : recordedNonce ≠ clientNonce)
    (h : Proves compute sharedSecret recordedNonce serverNonce pdu.payload) :
    authenticate T compute clientNonce unit s = .ok (.fail .hmacMismatch, s₁) := by
  obtain ⟨getKey, hcredentials, hkey⟩ := hstored
  have hlen := h.length_le
  have hno : computeAuthChallengeResponse compute clientNonce
    (Block.slice pdu.payload 0 16 (by omega)) sharedSecret ≠
      Block.slice pdu.payload 16 32 (by omega) :=
    fun heq => not_proves_of_ne hinj hne h _ (proves_iff.mpr ⟨rfl, heq⟩)
  simp only [authenticate, hclient, hcredentials, hkey, hstep2, ok_bind, authenticateRespond,
    dif_neg (show ¬pdu.payload.length < 48 by omega), ne_eq, hno, not_false_eq_true,
    if_true, pure_eq_ok]

/-! ### Peers and their answers -/

/-- The frame of an extended answer without optional fields. -/
def answerFrame (unitId : UInt8) (extFunctionCode : ExtendedFunctionCode)
    (payload : List UInt8) (transactionId : UInt16) :
    List UInt8 :=
  FrameCodec.wrapTcp unitId (.makeExtended { extFunctionCode } payload) transactionId

theorem decodeResponse_answerFrame (unitId : UInt8) (extFunctionCode : ExtendedFunctionCode)
    {payload : List UInt8} (hlen : payload.length ≤ 65525) (transactionId : UInt16) :
    decodeResponse (answerFrame unitId extFunctionCode payload transactionId) =
      .ok (.value (.makeExtended { extFunctionCode } payload)) := by
  have hround : PDU.RoundTrips (.makeExtended { extFunctionCode } payload) :=
    FrameCodec.roundTrips_plain extFunctionCode (by omega)
  have hsize : (PDU.makeExtended { extFunctionCode } payload).serialize.length ≤ 65534 := by
    rw [PDU.length_serialize_plain]
    omega
  rw [answerFrame,
    decodeResponse_value (FrameCodec.unwrapTcp_of_le unitId transactionId hround hsize),
    responseResult_of_not (show ¬FunctionCode.extended.IsException by decide)]

theorem transact_replies {request pdu : PDU} {answer : List UInt8} {answers : List (List UInt8)}
    {trace : List TransportEvent} (hdecode : decodeResponse answer = .ok (.value pdu)) :
    transact Transport.replies.traced unit request ⟨client, answer :: answers, trace⟩ =
      .ok (.value pdu, ⟨client.advance, answers,
        trace ++ [.sent (client.requestFrame unit request) .ok, .received (.value answer)]⟩) := by
  have hsent : VoidResult.ok.hasValue = true := rfl
  refine (transact_received rfl hsent rfl hdecode).trans ?_
  simp

/-- The server's half of the handshake, up to the confirmation. -/
theorem proves_honest (compute : KeyedHash) (sharedSecret : List UInt8)
    (clientNonce serverNonce : Nonce) :
    Proves compute sharedSecret clientNonce serverNonce (serverNonce.toList ++
      (computeAuthChallengeResponse compute clientNonce serverNonce sharedSecret).toList) :=
  List.take_of_length_le
    (by rw [List.length_append, serverNonce.length_toList, Block.length_toList])

/-- A hash that tells all strings of 32 bytes apart. -/
def firstBytes : KeyedHash := fun data _ =>
  ⟨(data ++ List.replicate 32 0).take 32,
    by rw [List.length_take, List.length_append, List.length_replicate]; omega⟩

theorem firstBytes_injective (key : List UInt8) (a b : Block UInt8 32)
    (h : firstBytes a.toList key = firstBytes b.toList key) : a = b := by
  have hlist := congrArg Block.toList h
  simp only [firstBytes] at hlist
  rw [List.take_append_of_le_length a.length_toList.ge,
    List.take_append_of_le_length b.length_toList.ge,
    List.take_of_length_le a.length_toList.le, List.take_of_length_le b.length_toList.le] at hlist
  exact Block.ext hlist

/-- A nonce of equal bytes. -/
def nonceOf (b : UInt8) : Nonce := ⟨List.replicate 16 b, List.length_replicate⟩

/-! ### Safety -/

/-- Against any peer, `authenticate` goes past its challenge only for a proof with the
stored secret and its own nonce, refuses recorded ones, and stores a session exactly
when it returns one. -/
theorem authenticate_safe (T : Transport τ) (compute : KeyedHash)
    (clientNonce : Nonce) (unit : UInt8) (client : Client) (net : τ) :
    (∀ result s', authenticate T.traced compute clientNonce unit ⟨client, net, []⟩ =
      .ok (result, s') →
      ((∃ session, result = .value session) ∨ ∃ digest transactionId,
        FrameCodec.wrapTcp unit (authResponseRequest digest) transactionId ∈
          TransportEvent.sentFrames s'.net.2) →
      ∃ sharedSecret serverNonce, client.Proven compute unit clientNonce
        sharedSecret serverNonce s'.net.2) ∧
    (∀ sharedSecret, client.Stored unit sharedSecret →
      (∀ a b : Block UInt8 32,
        compute a.toList sharedSecret = compute b.toList sharedSecret → a = b) →
      ∀ pdu s₁, transact T.traced unit (authChallengeRequest clientNonce) ⟨client, net, []⟩ =
        .ok (.value pdu, s₁) →
      ∀ recordedNonce serverNonce, recordedNonce ≠ clientNonce →
        Proves compute sharedSecret recordedNonce serverNonce pdu.payload →
        authenticate T.traced compute clientNonce unit ⟨client, net, []⟩ =
          .ok (.fail .hmacMismatch, s₁)) ∧
    (∀ result s', authenticate T.traced compute clientNonce unit ⟨client, net, []⟩ =
      .ok (result, s') →
      (∀ ec, result = .failure ec → s'.client.session = client.session) ∧
      ∀ session, result = .value session → s'.client.session = some session ∧
        ∃ sharedSecret serverNonce, client.Proven compute unit clientNonce
          sharedSecret serverNonce s'.net.2 ∧
          session.sessionKey = deriveSessionKey compute clientNonce serverNonce sharedSecret) := by
  refine ⟨?_, ?_, ?_⟩
  · rintro result s' h hbeyond
    rcases authenticate_cases h with ⟨ec, rfl, -, honly⟩ |
      ⟨sharedSecret, serverNonce, sent, bytes, pdu, events, -, hstored, htrace,
        hdecode, hproves, -, -, -⟩
    · rcases hbeyond with ⟨session, hsession⟩ | ⟨digest, transactionId, hmem⟩
      · cases hsession
      · exact absurd (honly _ hmem) (authResponse_ne_challenge digest transactionId)
    · exact ⟨sharedSecret, serverNonce, hstored, sent, bytes, pdu, events, htrace, hdecode, hproves⟩
  · intro sharedSecret hstored hinj pdu s₁ hstep2 recordedNonce serverNonce hne hproves
    exact authenticate_replayed hstored hinj rfl hstep2 hne hproves
  · rintro result s' h
    rcases authenticate_cases h with ⟨ec, rfl, hsession, -⟩ |
      ⟨sharedSecret, serverNonce, sent, bytes, pdu, events, step4, hstored,
        htrace, hdecode, hproves, -, hresult, hsession⟩
    · exact ⟨fun _ _ => hsession, fun _ hvalue => by cases hvalue⟩
    · refine ⟨fun ec hfailure => by rw [hsession, hfailure]; rfl,
        fun session hvalue => ⟨by rw [hsession, hvalue]; rfl, ?_⟩⟩
      refine ⟨sharedSecret, serverNonce,
        ⟨hstored, sent, bytes, pdu, events, htrace, hdecode, hproves⟩, ?_⟩
      cases step4 with
      | failure ec =>
        rw [hvalue] at hresult
        cases hresult
      | value pdu' =>
        rw [hvalue, Result.andThen_value] at hresult
        obtain ⟨token, expiry, -, rfl⟩ := authenticateConfirm_value hresult.symm
        rfl

/-- A proof that was recorded with one nonce, under another. -/
theorem authenticate_safe_recorded :
    ∃ s₁, authenticate Transport.replies.traced firstBytes (nonceOf 1) 9
    ⟨{ config := { credentials := some fun _ => .value [7] } },
      [answerFrame 9 .authChallenge ((nonceOf 2).toList ++
        (computeAuthChallengeResponse firstBytes (nonceOf 3) (nonceOf 2) [7]).toList) 1], []⟩ =
    .ok (.fail .hmacMismatch, s₁) := by
  obtain ⟨-, hrecorded, -⟩ := authenticate_safe Transport.replies firstBytes (nonceOf 1) 9
    { config := { credentials := some fun _ => .value [7] } }
    [answerFrame 9 .authChallenge ((nonceOf 2).toList ++
      (computeAuthChallengeResponse firstBytes (nonceOf 3) (nonceOf 2) [7]).toList) 1]
  have hdecode := decodeResponse_answerFrame 9 .authChallenge (show ((nonceOf 2).toList ++
    (computeAuthChallengeResponse firstBytes (nonceOf 3) (nonceOf 2) [7]).toList).length ≤
      65525 by decide) 1
  exact ⟨_, hrecorded [7] ⟨_, rfl, rfl⟩ (firstBytes_injective [7]) _ _
    (transact_replies hdecode) (nonceOf 3) (nonceOf 2)
    (by decide) (proves_honest firstBytes [7] (nonceOf 3) (nonceOf 2))⟩

/-! ### What a peer's two answers determine -/

/-- `authenticate` against a peer that answers twice. -/
theorem authenticate_replies (answers : List (List UInt8)) {step2 step4 : List UInt8}
    {pdu pdu' : PDU} (hstored : client.Stored unit sharedSecret)
    (hdecode : decodeResponse step2 = .ok (.value pdu))
    (hproves : Proves compute sharedSecret clientNonce serverNonce pdu.payload)
    (hdecode' : decodeResponse step4 = .ok (.value pdu')) :
    ∃ s', authenticate Transport.replies.traced compute clientNonce unit
      ⟨client, step2 :: step4 :: answers, []⟩ =
        .ok (authenticateConfirm (deriveSessionKey compute clientNonce serverNonce sharedSecret)
          pdu'.payload, s') ∧
      s'.net.1 = answers ∧ TransportEvent.receivedFrames s'.net.2 = [step2, step4] := by
  obtain ⟨getKey, hcredentials, hkey⟩ := hstored
  have hlen := hproves.length_le
  obtain ⟨hnonce, hdigest⟩ := (proves_iff (h := hlen)).mp hproves
  have hcheck : computeAuthChallengeResponse compute clientNonce serverNonce sharedSecret =
      Block.slice pdu.payload 16 32 (by omega) := by
    rw [hnonce]
    exact hdigest
  simp only [authenticate, hcredentials, hkey, transact_replies hdecode, ok_bind,
    authenticateRespond,
    dif_neg (show ¬pdu.payload.length < 48 by omega), ← hnonce, hcheck, ne_eq, not_true, if_false,
    transact_replies hdecode', Result.andThen_value]
  cases authenticateConfirm (deriveSessionKey compute clientNonce serverNonce sharedSecret)
    pdu'.payload with
  | failure ec => exact ⟨_, rfl, rfl, rfl⟩
  | value session => exact ⟨_, rfl, rfl, rfl⟩

theorem Proves.nonce_unique {serverNonce' : Nonce}
    (h : Proves compute sharedSecret clientNonce serverNonce payload)
    (h' : Proves compute sharedSecret clientNonce serverNonce' payload) :
    serverNonce = serverNonce' :=
  ((proves_iff (h := h.length_le)).mp h).1.trans ((proves_iff (h := h.length_le)).mp h').1.symm

/-- Some execution of `authenticate` with this nonce and secret received these two
frames and returned the session. -/
def Authenticated (compute : KeyedHash) (unit : UInt8) (clientNonce : Nonce)
    (sharedSecret step2 step4 : List UInt8) (session : Session) : Prop :=
  ∃ (τ : Type) (T : Transport τ) (client : Client) (net : τ) (s' : Running (τ × List TransportEvent)),
    client.Stored unit sharedSecret ∧
    authenticate T.traced compute clientNonce unit ⟨client, net, []⟩ = .ok (.value session, s') ∧
    TransportEvent.receivedFrames s'.net.2 = [step2, step4]

theorem Stored.unique {sharedSecret' : List UInt8} (h : client.Stored unit sharedSecret)
    (h' : client.Stored unit sharedSecret') : sharedSecret = sharedSecret' := by
  obtain ⟨getKey, hcredentials, hkey⟩ := h
  obtain ⟨getKey', hcredentials', hkey'⟩ := h'
  rw [hcredentials, Option.some.injEq] at hcredentials'
  rw [← hcredentials', hkey, Result.value.injEq] at hkey'
  exact hkey'

variable {step2 step4 : List UInt8} {session : Session}

theorem authenticated_iff :
    Authenticated compute unit clientNonce sharedSecret step2 step4 session ↔
    ∃ pdu serverNonce pdu', decodeResponse step2 = .ok (.value pdu) ∧
      Proves compute sharedSecret clientNonce serverNonce pdu.payload ∧
      decodeResponse step4 = .ok (.value pdu') ∧
      authenticateConfirm (deriveSessionKey compute clientNonce serverNonce sharedSecret)
        pdu'.payload =
        .value session := by
  constructor
  · rintro ⟨τ, T, client, net, s', hstored, h, hreceived⟩
    rcases authenticate_cases h with ⟨ec, hresult, -, -⟩ |
      ⟨sharedSecret', serverNonce, sent, bytes, pdu, events, result4, hstored', htrace, hdecode,
        hproves, hexchanged,
        hresult, -⟩
    · cases hresult
    · cases hstored.unique hstored'
      cases result4 with
      | failure ec => cases hresult
      | value pdu' =>
        obtain ⟨sent', bytes', rfl, hdecode'⟩ := hexchanged.answer
        rw [htrace] at hreceived
        cases hreceived
        exact ⟨pdu, serverNonce, pdu', hdecode, hproves, hdecode', hresult.symm⟩
  · rintro ⟨pdu, serverNonce, pdu', hdecode, hproves, hdecode', hconfirm⟩
    have hstored : ({ config := { credentials := some fun _ => .value sharedSecret } } :
      Client).Stored unit sharedSecret :=
      ⟨_, rfl, rfl⟩
    obtain ⟨s', h, -, hreceived⟩ := authenticate_replies [] hstored hdecode hproves hdecode'
    rw [hconfirm] at h
    exact ⟨_, _, _, _, s', hstored, h, hreceived⟩

theorem authenticateConfirm_eq_value {sessionKey : List UInt8} :
    authenticateConfirm sessionKey payload = .value session ↔ ∃ h : 24 ≤ payload.length,
      session = .create (Block.slice payload 0 16 (by omega)) sessionKey
        (Timestamp.deserialize (Block.slice payload 16 8 (by omega))) := by
  unfold authenticateConfirm
  split_ifs with hlen
  · constructor
    · intro h
      cases h
    · rintro ⟨h, -⟩
      omega
  · rw [Result.value.injEq, eq_comm]
    constructor
    · intro h
      exact ⟨by omega, h⟩
    · rintro ⟨_, h⟩
      exact h

theorem parameters_eq_iff {payload' : List UInt8} (h : 24 ≤ payload.length)
    (h' : 24 ≤ payload'.length) :
    ((Block.slice payload 0 16 (by omega) : SessionToken) = Block.slice payload' 0 16 (by omega) ∧
      Timestamp.deserialize (Block.slice payload 16 8 (by omega)) =
        Timestamp.deserialize (Block.slice payload' 16 8 (by omega))) ↔
          payload.take 24 = payload'.take 24 := by
  have hsplit (xs : List UInt8) : xs.take 24 = xs.take 16 ++ (xs.drop 16).take 8 :=
    List.take_add (l := xs) (i := 16) (j := 8)
  rw [hsplit payload, hsplit payload', Timestamp.deserialize_injective.eq_iff, Block.ext_iff,
    Block.ext_iff]
  simp only [Block.slice_toList, List.drop_zero]
  constructor
  · rintro ⟨htoken, hexpiry⟩
    rw [htoken, hexpiry]
  · intro hsame
    exact List.append_inj hsame (by rw [List.length_take, List.length_take]; omega)

theorem authenticated_honest (compute : KeyedHash) (unit : UInt8) (clientNonce serverNonce : Nonce)
    (sharedSecret : List UInt8) (parameters : Block UInt8 24) :
    Authenticated compute unit clientNonce sharedSecret
      (answerFrame unit .authChallenge (serverNonce.toList ++
        (computeAuthChallengeResponse compute clientNonce serverNonce sharedSecret).toList) 1)
      (answerFrame unit .authResponse parameters.toList 2)
      (.create (Block.slice parameters.toList 0 16 (by rw [parameters.length_toList]; decide))
        (deriveSessionKey compute clientNonce serverNonce sharedSecret)
        (Timestamp.deserialize
          (Block.slice parameters.toList 16 8 (by rw [parameters.length_toList])))) := by
  have hchallenge : (serverNonce.toList ++
      (computeAuthChallengeResponse compute clientNonce serverNonce sharedSecret).toList).length ≤
        65525 := by
    rw [List.length_append, serverNonce.length_toList, Block.length_toList]
    decide
  have hparameters : parameters.toList.length ≤ 65525 := by
    rw [parameters.length_toList]
    decide
  exact authenticated_iff.mpr ⟨_, serverNonce, _, decodeResponse_answerFrame unit _ hchallenge 1,
    proves_honest compute sharedSecret clientNonce serverNonce,
    decodeResponse_answerFrame unit _ hparameters 2,
    authenticateConfirm_eq_value.mpr ⟨parameters.length_toList.ge, rfl⟩⟩

/-- No other confirmation leads to other session parameters. -/
def ParametersProtected (compute : KeyedHash) : Prop :=
  ∀ (unit : UInt8) (clientNonce : Nonce) (sharedSecret step2 step4 step4' : List UInt8) (session session' : Session),
    Authenticated compute unit clientNonce sharedSecret step2 step4 session →
    Authenticated compute unit clientNonce sharedSecret step2 step4' session' →
    session.token = session'.token ∧ session.expiry = session'.expiry

/-- With the rest of the handshake given, every confirmation of 24 bytes or more is
accepted: the key stays the same, and the parameters are what it says. -/
theorem parameters_from_confirmation
    (h : Authenticated compute unit clientNonce sharedSecret step2 step4 session) :
    ∃ pdu, decodeResponse step4 = .ok (.value pdu) ∧
      (∀ step4' session', Authenticated compute unit clientNonce sharedSecret
        step2 step4' session' ↔
        ∃ pdu', decodeResponse step4' = .ok (.value pdu') ∧ ∃ h : 24 ≤ pdu'.payload.length,
          session' = .create (Block.slice pdu'.payload 0 16 (by omega)) session.sessionKey
            (Timestamp.deserialize (Block.slice pdu'.payload 16 8 (by omega)))) ∧
      ∀ step4' session' pdu',
        Authenticated compute unit clientNonce sharedSecret step2 step4' session' →
        decodeResponse step4' = .ok (.value pdu') →
        (session.token = session'.token ∧ session.expiry = session'.expiry ↔
          pdu.payload.take 24 = pdu'.payload.take 24) := by
  obtain ⟨pdu₂, serverNonce, pdu, hstep2, hproves, hstep4, hconfirm⟩ := authenticated_iff.mp h
  obtain ⟨hlen, rfl⟩ := authenticateConfirm_eq_value.mp hconfirm
  have hall (step4' : List UInt8) (session' : Session) :
      Authenticated compute unit clientNonce sharedSecret step2 step4' session' ↔
        ∃ pdu', decodeResponse step4' = .ok (.value pdu') ∧ ∃ h : 24 ≤ pdu'.payload.length,
          session' = .create (Block.slice pdu'.payload 0 16 (by omega))
            (deriveSessionKey compute clientNonce serverNonce sharedSecret)
            (Timestamp.deserialize (Block.slice pdu'.payload 16 8 (by omega))) := by
    constructor
    · intro h'
      obtain ⟨pdu₂', serverNonce', pdu', hstep2', hproves', hstep4', hconfirm'⟩ :=
        authenticated_iff.mp h'
      rw [hstep2, Except.ok.injEq, Result.value.injEq] at hstep2'
      subst hstep2'
      rw [hproves'.nonce_unique hproves] at hconfirm'
      exact ⟨pdu', hstep4', authenticateConfirm_eq_value.mp hconfirm'⟩
    · rintro ⟨pdu', hstep4', hsession⟩
      exact authenticated_iff.mpr
        ⟨pdu₂, serverNonce, pdu', hstep2, hproves, hstep4',
          authenticateConfirm_eq_value.mpr hsession⟩
  refine ⟨pdu, hstep4, hall, ?_⟩
  intro step4' session' pdu' h' hdecode'
  obtain ⟨pdu'', hdecode'', hlen', rfl⟩ := (hall step4' session').mp h'
  rw [hdecode', Except.ok.injEq, Result.value.injEq] at hdecode''
  subst hdecode''
  exact parameters_eq_iff hlen hlen'

theorem parameters_from_confirmation_zeros : ∃ pdu,
    decodeResponse (answerFrame 1 .authResponse (List.replicate 24 0) 2) = .ok (.value pdu) ∧
    ∀ step4' session' pdu', Authenticated firstBytes 1 (nonceOf 1) [7]
        (answerFrame 1 .authChallenge
          ((nonceOf 2).toList ++ (nonceOf 1).toList ++ (nonceOf 2).toList) 1) step4' session' →
      decodeResponse step4' = .ok (.value pdu') →
      (⟨List.replicate 16 0, rfl⟩ = session'.token ∧ ⟨0⟩ = session'.expiry ↔
        pdu.payload.take 24 = pdu'.payload.take 24) := by
  obtain ⟨pdu, hdecode, -, hsame⟩ := parameters_from_confirmation
    (authenticated_honest firstBytes 1 (nonceOf 1) (nonceOf 2) [7] ⟨List.replicate 24 0, rfl⟩)
  exact ⟨pdu, hdecode, hsame⟩

/-- Whatever the hash, a confirmation with another token is accepted as well. -/
theorem parameters_tampered : ¬∃ compute : KeyedHash, ParametersProtected compute := by
  rintro ⟨compute, hprotected⟩
  have h := authenticated_honest compute 1 (nonceOf 0) (nonceOf 0) [] ⟨List.replicate 24 0, rfl⟩
  have h' := authenticated_honest compute 1 (nonceOf 0) (nonceOf 0) [] ⟨List.replicate 24 1, rfl⟩
  have htoken : List.replicate 16 (0 : UInt8) = List.replicate 16 1 :=
    congrArg Block.toList (hprotected _ _ _ _ _ _ _ _ h h').1
  exact absurd htoken (by decide)

end Client

end ModbusPp

import ModbusPp.Client.Client

/-! What the handshake discloses. The session key and the digest of the server's
answer to the challenge are the same hash of the same string, so the key crosses
the wire in the clear; the client's digest hashes the nonces in the other order
and, for distinct nonces, tells nothing about it. -/

namespace ModbusPp

open Foundation

/-- Everything a handshake depends on. -/
structure Handshake where
  compute : KeyedHash
  sharedSecret : List UInt8
  clientNonce : Nonce
  serverNonce : Nonce
  token : SessionToken
  expiry : Timestamp

/-- The contents of the four messages. -/
structure Transcript where
  clientNonce : Nonce
  serverNonce : Nonce
  serverDigest : HMACDigest
  clientDigest : HMACDigest
  token : SessionToken
  expiry : Timestamp

/-- The messages without the server's digest, and the means to evaluate the hash. -/
structure Remainder where
  compute : KeyedHash
  clientDigest : HMACDigest
  token : SessionToken
  expiry : Timestamp

namespace Handshake

def sessionKey (h : Handshake) : List UInt8 :=
  deriveSessionKey h.compute h.clientNonce h.serverNonce h.sharedSecret

def transcript (h : Handshake) : Transcript where
  clientNonce := h.clientNonce
  serverNonce := h.serverNonce
  serverDigest := computeAuthChallengeResponse h.compute h.clientNonce h.serverNonce h.sharedSecret
  clientDigest := computeAuthResponse h.compute h.clientNonce h.serverNonce h.sharedSecret
  token := h.token
  expiry := h.expiry

def remainder (h : Handshake) : Remainder where
  compute := h.compute
  clientDigest := h.transcript.clientDigest
  token := h.token
  expiry := h.expiry

/-- No fixed function of the four messages yields the session key. -/
def KeyHidden : Prop :=
  ¬∃ f : Transcript → List UInt8, ∀ h : Handshake, f h.transcript = h.sessionKey

theorem serverDigest_eq (h : Handshake) : h.transcript.serverDigest.toList = h.sessionKey := rfl

/-- Taking the server's digest out of the second message yields the session key. -/
theorem sessionKey_disclosed : ¬KeyHidden :=
  fun hidden => hidden ⟨fun t => t.serverDigest.toList, serverDigest_eq⟩

/-! ### The rest of the messages -/

/-- A block of equal bytes. -/
def filled (b : UInt8) : HMACDigest := ⟨List.replicate 32 b, List.length_replicate⟩

/-- A hash that depends on the key for one string only. -/
def revealing (data : List UInt8) : KeyedHash := fun data' key =>
  if data' = data ∧ key = [1] then filled 1 else filled 0

/-- For distinct nonces the other messages, and the hash with them, do not
determine the session key. -/
theorem remainder_hides {clientNonce serverNonce : Nonce} (hne : clientNonce ≠ serverNonce) :
    ¬∃ f : Remainder → List UInt8, ∀ h : Handshake, h.clientNonce = clientNonce →
      h.serverNonce = serverNonce →
      f h.remainder = h.sessionKey := by
  rintro ⟨f, hf⟩
  -- two secrets, told apart by the hash of the nonces in the key's order only
  let hash := revealing (concatNonces clientNonce serverNonce).toList
  let first : Handshake := ⟨hash, [0], clientNonce, serverNonce, ⟨List.replicate 16 0, rfl⟩, ⟨0⟩⟩
  let second : Handshake := { first with sharedSecret := [1] }
  have hswap : (concatNonces serverNonce clientNonce).toList ≠
      (concatNonces clientNonce serverNonce).toList :=
    fun h => concatNonces_swap_ne hne (Block.ext h).symm
  have hsame : first.remainder = second.remainder := by
    simp [first, second, remainder, transcript, computeAuthResponse, hash, revealing, hswap]
  have hdiff : first.sessionKey ≠ second.sessionKey := by
    simp [first, second, sessionKey, deriveSessionKey, hash, revealing, filled]
  have h₁ := hf first rfl rfl
  have h₂ := hf second rfl rfl
  rw [hsame, h₂] at h₁
  exact hdiff h₁.symm

end Handshake

namespace Client

variable {τ : Type} {T : Transport τ} {compute : KeyedHash} {unit : UInt8}
  {clientNonce : Nonce} {s s' : Running τ}
  {sharedSecret sessionKey payload : List UInt8} {session : Session}

theorem authenticateConfirm_value (h : authenticateConfirm sessionKey payload = .value session) :
    ∃ token expiry, payload.take 16 = Block.toList token ∧
      session = .create token sessionKey expiry := by
  unfold authenticateConfirm at h
  split_ifs at h
  · cases h
  · cases h
    exact ⟨_, _, rfl, rfl⟩

theorem authenticateRespond_value
    (h : authenticateRespond T compute unit sharedSecret clientNonce payload s =
      .ok (.value session, s')) :
    ∃ serverNonce token expiry step4 s₁,
      payload.take 48 = Block.toList serverNonce ++
        (computeAuthChallengeResponse compute clientNonce serverNonce sharedSecret).toList ∧
      transact T unit
        (authResponseRequest (computeAuthResponse compute clientNonce serverNonce sharedSecret)) s =
        .ok (.value step4, s₁) ∧
      step4.payload.take 16 = Block.toList token ∧
      session = .create token (deriveSessionKey compute clientNonce serverNonce sharedSecret)
        expiry := by
  unfold authenticateRespond at h
  split_ifs at h with hlen
  · cases h
  · dsimp only at h
    split_ifs at h with hmac
    · cases h
    · obtain ⟨⟨step4, s₁⟩, hstep4, h⟩ := bind_eq_ok.mp h
      cases step4 with
      | failure ec => cases h
      | value pdu =>
        rw [Result.andThen_value] at h
        cases hconfirm : authenticateConfirm (deriveSessionKey compute clientNonce
            (Block.slice payload 0 16 (by omega)) sharedSecret) pdu.payload with
        | failure ec => simp [hconfirm] at h
        | value confirmed =>
          simp only [hconfirm, pure_eq_ok, Except.ok.injEq, Prod.mk.injEq, Result.value.injEq] at h
          obtain ⟨token, expiry, htoken, hsession⟩ := authenticateConfirm_value hconfirm
          refine ⟨_, token, expiry, pdu, s₁, ?_, hstep4, htoken, h.1 ▸ hsession⟩
          rw [not_not.mp hmac]
          rw [Block.slice_toList, Block.slice_toList, List.drop_zero, ← List.take_add]

/-- Every successful authentication exchanged the messages of a handshake and
keeps the handshake's session key. -/
theorem authenticate_handshake
    (h : authenticate T compute clientNonce unit s = .ok (.value session, s')) :
    ∃ (hs : Handshake) (step2 step4 : PDU) (s₁ s₂ : Running τ),
      hs.compute = compute ∧ hs.clientNonce = clientNonce ∧
      transact T unit (authChallengeRequest hs.transcript.clientNonce) s = .ok (.value step2, s₁) ∧
      step2.payload.take 48 = hs.transcript.serverNonce.toList ++
        hs.transcript.serverDigest.toList ∧
      transact T unit (authResponseRequest hs.transcript.clientDigest) s₁ = .ok (.value step4, s₂) ∧
      step4.payload.take 16 = hs.transcript.token.toList ∧
      session = .create hs.transcript.token hs.sessionKey hs.transcript.expiry := by
  unfold authenticate at h
  split at h
  · cases h
  · split at h
    · cases h
    · rename_i sharedSecret _
      obtain ⟨⟨step2, s₁⟩, hstep2, h⟩ := bind_eq_ok.mp h
      cases step2 with
      | failure ec => cases h
      | value pdu =>
        obtain ⟨serverNonce, token, expiry, step4, s₂, hpayload, hstep4, htoken, hsession⟩ :=
          authenticateRespond_value h
        exact ⟨⟨compute, sharedSecret, clientNonce, serverNonce, token, expiry⟩, pdu, step4, s₁, s₂,
          rfl, rfl, hstep2, hpayload, hstep4, htoken, hsession⟩

/-- The handshake discloses the session key in the server's digest, byte for byte
and in every successful authentication, and for distinct nonces nowhere else. -/
theorem sessionKey_only_in_serverDigest :
    (∀ h : Handshake, h.transcript.serverDigest.toList = h.sessionKey) ∧
    (∀ (τ : Type) (T : Transport τ) (compute : KeyedHash) (clientNonce : Nonce) (unit : UInt8) (s s' : Running τ)
      (session : Session), authenticate T compute clientNonce unit s = .ok (.value session, s') →
      ∃ step2 s₁, transact T unit (authChallengeRequest clientNonce) s = .ok (.value step2, s₁) ∧
        session.sessionKey = (step2.payload.drop 16).take 32) ∧
    (∀ clientNonce serverNonce : Nonce, clientNonce ≠ serverNonce →
      ¬∃ f : Remainder → List UInt8, ∀ h : Handshake, h.clientNonce = clientNonce →
        h.serverNonce = serverNonce →
        f h.remainder = h.sessionKey) := by
  refine ⟨Handshake.serverDigest_eq, ?_, fun _ _ => Handshake.remainder_hides⟩
  intro τ T compute clientNonce unit s s' session h
  obtain ⟨hs, step2, step4, s₁, s₂, -, rfl, hstep2, hpayload, -, -, rfl⟩ := authenticate_handshake h
  refine ⟨step2, s₁, hstep2, ?_⟩
  have hdigest : (step2.payload.drop 16).take 32 = (step2.payload.take 48).drop 16 := by
    rw [List.drop_take]
  rw [hdigest, hpayload, List.drop_left' (by simp)]
  rfl

end Client

end ModbusPp

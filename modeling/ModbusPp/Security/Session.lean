import ModbusPp.Foundation.Block
import ModbusPp.Core.Pdu

/-! Sessions and the digests of the handshake (`session.hpp`, `session.cpp`). The
keyed hash is a parameter: `compute data key` stands for `HMACAuth::compute`,
which is OpenSSL's HMAC-SHA256. -/

namespace ModbusPp

open Foundation

/-- `HMACAuth::compute` as a function of the data and the key. -/
abbrev KeyedHash := List UInt8 → List UInt8 → HMACDigest

abbrev Nonce := Block UInt8 16

abbrev SessionToken := Block UInt8 16

structure Session where
  token : SessionToken
  sessionKey : List UInt8
  expiry : Timestamp
  authenticated : Bool
  deriving DecidableEq

namespace Session

/-- `Session::create`. -/
def create (token : SessionToken) (sessionKey : List UInt8) (expiry : Timestamp) : Session :=
  ⟨token, sessionKey, expiry, true⟩

/-- `is_expired` at a clock reading. -/
def IsExpired (session : Session) (now : Timestamp) : Prop :=
  session.expiry.usSinceEpoch < now.usSinceEpoch

instance (session : Session) (now : Timestamp) : Decidable (session.IsExpired now) :=
  inferInstanceAs (Decidable (_ < _))

end Session

def concatNonces (a b : Nonce) : Block UInt8 32 := a.append b

variable (compute : KeyedHash)

/-- `HMACAuth::verify`: the differences of all bytes are collected before any is looked at. -/
def HMACAuth.verify (data key : List UInt8) (expected : HMACDigest) : Bool :=
  let computed := compute data key
  let diff := (List.zipWith (· ^^^ ·) computed.toList expected.toList).foldl (· ||| ·) (0 : UInt8)
  diff == 0

/-- `Session::sign`. -/
def Session.sign (session : Session) (pduData : List UInt8) : HMACDigest :=
  compute pduData session.sessionKey

/-- `Session::verify`. -/
def Session.verify (session : Session) (pduData : List UInt8) (digest : HMACDigest) : Bool :=
  HMACAuth.verify compute pduData session.sessionKey digest

def deriveSessionKey (clientNonce serverNonce : Nonce) (sharedSecret : List UInt8) : List UInt8 :=
  (compute (concatNonces clientNonce serverNonce).toList sharedSecret).toList

def computeAuthChallengeResponse (clientNonce serverNonce : Nonce)
    (sharedSecret : List UInt8) : HMACDigest :=
  compute (concatNonces clientNonce serverNonce).toList sharedSecret

/-- The order is reversed: the server's nonce comes first. -/
def computeAuthResponse (clientNonce serverNonce : Nonce) (sharedSecret : List UInt8) :
    HMACDigest :=
  compute (concatNonces serverNonce clientNonce).toList sharedSecret

theorem foldl_or_eq_zero (diffs : List UInt8) (diff : UInt8) :
    diffs.foldl (· ||| ·) diff = 0 ↔ diff = 0 ∧ ∀ d ∈ diffs, d = 0 := by
  induction diffs generalizing diff with
  | nil => simp
  | cons d diffs ih =>
      rw [List.foldl_cons, ih, UInt8.or_eq_zero_iff, List.forall_mem_cons, and_assoc]

theorem zipWith_xor_zero {xs ys : List UInt8} (hlen : xs.length = ys.length) :
    (∀ d ∈ List.zipWith (· ^^^ ·) xs ys, d = 0) ↔ xs = ys := by
  induction xs generalizing ys with
  | nil =>
    rw [List.length_eq_zero_iff.mp hlen.symm]
    simp
  | cons x xs ih =>
    cases ys with
    | nil => cases hlen
    | cons y ys =>
      rw [List.zipWith_cons_cons, List.forall_mem_cons, ih (Nat.succ.inj hlen),
        UInt8.xor_eq_zero_iff, List.cons.injEq]

/-- The digests that a session accepts are its own. -/
theorem Session.verify_iff (session : Session) (pduData : List UInt8) (digest : HMACDigest) :
    session.verify compute pduData digest = true ↔ digest = session.sign compute pduData := by
  have hlen : (session.sign compute pduData).toList.length = digest.toList.length := by
    rw [Block.length_toList, Block.length_toList]
  rw [Session.verify, HMACAuth.verify, beq_iff_eq, foldl_or_eq_zero, and_iff_right rfl]
  exact (zipWith_xor_zero hlen).trans (Block.ext_iff.symm.trans eq_comm)

/-- Swapping distinct nonces changes the hashed string. -/
theorem concatNonces_swap_ne {a b : Nonce} (h : a ≠ b) : concatNonces a b ≠ concatNonces b a :=
  fun heq => h (Block.append_inj heq).1

end ModbusPp

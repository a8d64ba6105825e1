import ModbusPp.Foundation.BigEndian
import ModbusPp.Foundation.Block

/-! Timestamps (`timestamp.hpp`): signed microseconds since the epoch, eight
big-endian bytes on the wire. -/

namespace ModbusPp

open Foundation

structure Timestamp where
  usSinceEpoch : Int64
  deriving DecidableEq

namespace Timestamp

/-- The loop of `serialize` over the lowest `n` buffer indices: the last byte is
written first, from the low end of `val`. -/
def serializeLoop : ℕ → UInt64 → List UInt8
  | 0, _ => []
  | n + 1, val => serializeLoop n (val >>> 8) ++ [(val &&& 0xFF).toUInt8]

theorem serializeLoop_length (n : ℕ) (val : UInt64) : (serializeLoop n val).length = n := by
  induction n generalizing val with
  | zero => rfl
  | succ n ih => simp [serializeLoop, ih]

def serialize (t : Timestamp) : Block UInt8 8 :=
  ⟨serializeLoop 8 t.usSinceEpoch.toUInt64, serializeLoop_length 8 _⟩

/-- The loop of `deserialize`. -/
def deserializeLoop (data : List UInt8) : UInt64 :=
  data.foldl (fun val b => (val <<< 8) ||| b.toUInt64) 0

def deserialize (data : Block UInt8 8) : Timestamp := ⟨(deserializeLoop data.toList).toInt64⟩

theorem serializeLoop_eq (n : ℕ) (val : UInt64) :
    serializeLoop n val = BigEndian.bytes n val.toNat := by
  induction n generalizing val with
  | zero => rfl
  | succ n ih =>
    have hmask := Nat.and_two_pow_sub_one_eq_mod (val.toNat % 256) 8
    have hshift : (val >>> 8).toNat = val.toNat / 256 := by
      simp [UInt64.toNat_shiftRight, Nat.shiftRight_eq_div_pow]
    have hlow : (val &&& 0xFF).toUInt8 = UInt8.ofNat val.toNat := by
      apply UInt8.toNat_inj.mp
      simp only [Nat.reducePow, Nat.reduceSub, Nat.mod_mod] at hmask
      simp [hmask]
    rw [serializeLoop, ih, BigEndian.bytes, hshift, hlow]

theorem toNat_shift_or (val : UInt64) (b : UInt8) :
    ((val <<< 8) ||| b.toUInt64).toNat = (256 * val.toNat + b.toNat) % 2 ^ 64 := by
  have hb := b.toNat_lt
  have hdvd : 256 * val.toNat % 2 ^ 64 = (val.toNat % 2 ^ 56) <<< 8 := by
    rw [Nat.shiftLeft_eq]
    omega
  have hor := Nat.shiftLeft_add_eq_or_of_lt (i := 8) hb (val.toNat % 2 ^ 56)
  simp only [UInt64.toNat_or, UInt64.toNat_shiftLeft, UInt8.toNat_toUInt64, UInt64.reduceToNat,
    Nat.reduceMod, Nat.shiftLeft_eq val.toNat]
  rw [Nat.mul_comm val.toNat, show (2 : ℕ) ^ 8 = 256 from rfl, hdvd, ← hor, ← hdvd]
  omega

theorem deserializeLoop_toNat (data : List UInt8) :
    (deserializeLoop data).toNat = BigEndian.value data % 2 ^ 64 := by
  induction data using List.reverseRecOn with
  | nil => rfl
  | append_singleton data b ih =>
    rw [deserializeLoop] at ih
    rw [deserializeLoop, List.foldl_append, List.foldl_cons, List.foldl_nil, toNat_shift_or, ih,
      BigEndian.value_snoc]
    omega

/-- The eight bytes of a timestamp, negative ones included, read back as it. -/
@[simp] theorem deserialize_serialize (t : Timestamp) : deserialize t.serialize = t := by
  have hval : deserializeLoop (serializeLoop 8 t.usSinceEpoch.toUInt64) =
      t.usSinceEpoch.toUInt64 := by
    have hlt := t.usSinceEpoch.toUInt64.toNat_lt
    apply UInt64.toNat_inj.mp
    rw [deserializeLoop_toNat, serializeLoop_eq, BigEndian.value_bytes]
    omega
  cases t
  simp only [deserialize, serialize] at hval ⊢
  rw [hval, Int64.toInt64_toUInt64]

/-- Different bytes are different timestamps. -/
theorem serialize_deserialize (data : Block UInt8 8) : (deserialize data).serialize = data := by
  have hlt := BigEndian.value_lt data.toList
  have hbytes := BigEndian.bytes_value data.toList
  rw [data.length_toList] at hlt hbytes
  rw [show (256 : ℕ) ^ 8 = 2 ^ 64 by norm_num] at hlt
  have hval := deserializeLoop_toNat data.toList
  rw [Nat.mod_eq_of_lt hlt] at hval
  apply Block.ext
  simp only [serialize, deserialize, UInt64.toUInt64_toInt64, serializeLoop_eq, hval, hbytes]

theorem deserialize_injective : Function.Injective deserialize :=
  fun a b h => by rw [← serialize_deserialize a, h, serialize_deserialize]

end Timestamp

end ModbusPp

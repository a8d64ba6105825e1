import Mathlib.Tactic

/-! The 16-bit words of the wire, two bytes each, high byte first. The source
spells these conversions out with shifts and masks wherever it needs them. -/

namespace ModbusPp

/-- `static_cast<byte_t>(x >> 8)`. -/
def hiByte (x : UInt16) : UInt8 := (x >>> 8).toUInt8

/-- `static_cast<byte_t>(x & 0xFF)`. -/
def loByte (x : UInt16) : UInt8 := (x &&& 0xFF).toUInt8

/-- `(static_cast<std::uint16_t>(hi) << 8) | lo`. -/
def word (hi lo : UInt8) : UInt16 := (hi.toUInt16 <<< 8) ||| lo.toUInt16

theorem toNat_ofNat_word {n : ℕ} (h : n < 65536) : (UInt16.ofNat n).toNat = n := by
  rw [UInt16.toNat_ofNat', Nat.mod_eq_of_lt h]

theorem toNat_hiByte (x : UInt16) : (hiByte x).toNat = x.toNat / 256 := by
  have hx := x.toNat_lt
  simp only [hiByte, UInt16.toNat_toUInt8, UInt16.toNat_shiftRight, UInt16.reduceToNat,
    Nat.reduceMod, Nat.shiftRight_eq_div_pow, Nat.reducePow] at hx ⊢
  omega

theorem toNat_loByte (x : UInt16) : (loByte x).toNat = x.toNat % 256 := by
  have hmask := Nat.and_two_pow_sub_one_eq_mod x.toNat 8
  simp only [Nat.reducePow, Nat.reduceSub] at hmask
  simp only [loByte, UInt16.toNat_toUInt8, UInt16.toNat_and, UInt16.reduceToNat, hmask,
    Nat.reducePow]
  omega

theorem toNat_word (hi lo : UInt8) : (word hi lo).toNat = 256 * hi.toNat + lo.toNat := by
  have hhi := hi.toNat_lt
  have hlo := lo.toNat_lt
  have hor := Nat.shiftLeft_add_eq_or_of_lt (i := 8) hlo hi.toNat
  simp only [word, UInt16.toNat_or, UInt16.toNat_shiftLeft, UInt8.toNat_toUInt16,
    UInt16.reduceToNat, Nat.reduceMod, Nat.shiftLeft_eq, Nat.reducePow] at hor hhi hlo ⊢
  rw [Nat.mod_eq_of_lt (by omega), ← hor]
  omega

@[simp] theorem word_bytes (x : UInt16) : word (hiByte x) (loByte x) = x := by
  apply UInt16.toNat_inj.mp
  rw [toNat_word, toNat_hiByte, toNat_loByte]
  omega

@[simp] theorem hiByte_word (hi lo : UInt8) : hiByte (word hi lo) = hi := by
  have hlo := lo.toNat_lt
  apply UInt8.toNat_inj.mp
  rw [toNat_hiByte, toNat_word]
  omega

@[simp] theorem loByte_word (hi lo : UInt8) : loByte (word hi lo) = lo := by
  have hlo := lo.toNat_lt
  apply UInt8.toNat_inj.mp
  rw [toNat_loByte, toNat_word]
  omega

end ModbusPp

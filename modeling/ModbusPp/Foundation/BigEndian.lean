import Mathlib.Tactic

/-! Big-endian byte strings as numbers. `value` reads a string most significant
byte first, `bytes n` writes the low `n` bytes of a number, and reading what was
written gives the number modulo `256 ^ n`. -/

namespace ModbusPp.Foundation.BigEndian

/-- The number a byte string spells, most significant byte first. -/
def value (bs : List UInt8) : ℕ := bs.foldl (fun acc b => 256 * acc + b.toNat) 0

/-- The low `n` bytes of `v`, most significant first. -/
def bytes : ℕ → ℕ → List UInt8
  | 0, _ => []
  | n + 1, v => bytes n (v / 256) ++ [UInt8.ofNat v]

@[simp] theorem value_nil : value [] = 0 := rfl

theorem value_snoc (bs : List UInt8) (b : UInt8) :
    value (bs ++ [b]) = 256 * value bs + b.toNat := by
  simp [value, List.foldl_append]

/-- Writing keeps the residue of the number. -/
theorem value_bytes (n v : ℕ) : value (bytes n v) = v % 256 ^ n := by
  induction n generalizing v with
  | zero => simp [bytes, Nat.mod_one]
  | succ n ih =>
    rw [bytes, value_snoc, ih, pow_succ, Nat.mul_comm (256 ^ n) 256, Nat.mod_mul]
    simp only [UInt8.toNat_ofNat']
    omega

/-- Reading keeps every byte. -/
theorem bytes_value (bs : List UInt8) : bytes bs.length (value bs) = bs := by
  induction bs using List.reverseRecOn with
  | nil => rfl
  | append_singleton bs b ih =>
    have hb := b.toNat_lt
    have hhigh : (256 * value bs + b.toNat) / 256 = value bs := by omega
    have hlow : UInt8.ofNat (256 * value bs + b.toNat) = b := by
      rw [← UInt8.toNat_inj, UInt8.toNat_ofNat']
      omega
    rw [List.length_append, List.length_singleton, bytes, value_snoc, hhigh, hlow, ih]

theorem value_lt (bs : List UInt8) : value bs < 256 ^ bs.length := by
  induction bs using List.reverseRecOn with
  | nil => exact Nat.one_pos
  | append_singleton bs b ih =>
    have hb := b.toNat_lt
    rw [value_snoc, List.length_append, List.length_singleton, pow_succ]
    omega

end ModbusPp.Foundation.BigEndian

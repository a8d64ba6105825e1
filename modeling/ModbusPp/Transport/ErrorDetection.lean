import ModbusPp.Core.PduAcceptance
import ModbusPp.Transport.CrcRegister

/-! What the RTU check detects. A frame passes it exactly when the CRC of the whole
frame is zero. An error pattern is a frame's worth of bytes to be added to it; it
goes undetected only when the pattern alone leaves the register at zero. The polynomial is `(x +
1)(x¹⁵ + x + 1)`: the first factor sees every odd pattern, the second has order 32767, and a burst
of sixteen bits is shorter than the register. -/

namespace ModbusPp.FrameCodec

open Foundation

/-! ### The residue -/

theorem residue_eq_zero_iff_crc16 (frame : List UInt8) : residue frame = 0 ↔ crc16 frame = 0 := by
  have hrun : residue frame = ⟨crc16 frame⟩ := run_lineBits 0xFFFF frame
  rw [hrun, CrcWord.ext_iff, CrcWord.zero_bits]

theorem residue_wrapRtu (unitId : UInt8) (pdu : PDU) : residue (wrapRtu unitId pdu) = 0 :=
  (residue_eq_zero_iff (unitId :: pdu.serialize) _ _).mpr (word_bytes _).symm

theorem exists_rtuParts {frame : List UInt8} (hmin : 4 ≤ frame.length) :
    ∃ unitId body lo hi, frame = unitId :: body ++ [lo, hi] ∧ 0 < body.length := by
  cases frame with
  | nil => simp at hmin
  | cons unitId rest =>
    rw [List.length_cons] at hmin
    obtain ⟨lo, hi, htail⟩ := List.length_eq_two.mp
      (show (rest.drop (rest.length - 2)).length = 2 by rw [List.length_drop]; omega)
    refine ⟨unitId, rest.take (rest.length - 2), lo, hi, ?_, by rw [List.length_take]; omega⟩
    rw [← htail, List.cons_append, List.take_append_drop]

theorem parse_ne_crcMismatch (raw : List UInt8) : PDU.parse raw ≠ .fail .crcMismatch := by
  intro h
  have hreject : PDU.deserialize (.ofList raw) = .ok (.fail .crcMismatch) := by
    rw [PDU.deserialize_ofList, h]
  rcases PDU.deserialize_rejection hreject with hinvalid | hversion
  · exact absurd hinvalid (by decide)
  · exact absurd hversion (by decide)

/-- The check fails exactly on the frames that do not bring the register to zero. -/
theorem unwrapRtu_crcMismatch {frame : List UInt8} (hmin : 4 ≤ frame.length) :
    unwrapRtu (.ofList frame) = .ok (.fail .crcMismatch) ↔ residue frame ≠ 0 := by
  obtain ⟨unitId, body, lo, hi, rfl, hbody⟩ := exists_rtuParts hmin
  have hzero : residue (unitId :: body ++ [lo, hi]) = 0 ↔ crc16 (unitId :: body) = word hi lo :=
    residue_eq_zero_iff (unitId :: body) lo hi
  rw [unwrapRtu_eq unitId hbody]
  by_cases hcrc : crc16 (unitId :: body) = word hi lo
  · rw [if_neg (not_not.mpr hcrc)]
    refine iff_of_false ?_ (not_not.mpr (hzero.mpr hcrc))
    intro h
    cases hparse : PDU.parse body with
    | value pdu =>
      rw [hparse, Result.andThen_value] at h
      cases h
    | failure ec =>
      rw [hparse] at h
      cases h
      exact parse_ne_crcMismatch body hparse
  · rw [if_pos hcrc]
    exact iff_of_true rfl (mt hzero.mp hcrc)

/-- The CRC of a string with two more bytes is zero exactly when they are its CRC, so
the comparison made on a received frame asks whether the CRC of all of it is zero. -/
theorem crc_residue :
    (∀ data a b, crc16 (data ++ [a, b]) = 0 ↔ a = loByte (crc16 data) ∧ b = hiByte (crc16 data)) ∧
    (∀ frame, 4 ≤ frame.length →
      (unwrapRtu (.ofList frame) ≠ .ok (.fail .crcMismatch) ↔ crc16 frame = 0)) ∧
    ∀ unitId pdu, crc16 (wrapRtu unitId pdu) = 0 := by
  refine ⟨?_, ?_, ?_⟩
  · intro data a b
    rw [← residue_eq_zero_iff_crc16, residue_eq_zero_iff]
    constructor
    · intro h
      rw [h, loByte_word, hiByte_word]
      exact ⟨rfl, rfl⟩
    · rintro ⟨rfl, rfl⟩
      exact (word_bytes _).symm
  · intro frame hmin
    rw [ne_eq, unwrapRtu_crcMismatch hmin, not_not, residue_eq_zero_iff_crc16]
  · intro unitId pdu
    exact (residue_eq_zero_iff_crc16 _).mp (residue_wrapRtu unitId pdu)

/-! ### Error patterns -/

/-- The frame with the bits of an error pattern flipped. -/
def corrupt (frame : List UInt8) (e : Block UInt8 frame.length) : List UInt8 :=
  List.zipWith (· ^^^ ·) frame e.toList

/-- The bits a pattern flips, in transmission order. -/
def flippedBits {n : ℕ} (e : Block UInt8 n) : List Bool := lineBits e.toList

theorem byteBits_xor (b c : UInt8) : byteBits (b ^^^ c) = List.zipWith xor (byteBits b)
    (byteBits c) := by
  simp [byteBits, List.range_succ]

theorem lineBits_xor {xs ys : List UInt8} (hlen : xs.length = ys.length) :
    lineBits (List.zipWith (· ^^^ ·) xs ys) = List.zipWith xor (lineBits xs) (lineBits ys) := by
  induction xs generalizing ys with
  | nil => rfl
  | cons x xs ih =>
    cases ys with
    | nil => simp at hlen
    | cons y ys =>
      have htail := ih (Nat.succ.inj hlen)
      simp only [lineBits] at htail
      simp only [lineBits, List.zipWith_cons_cons, List.flatMap_cons, htail, byteBits_xor]
      rw [List.zipWith_append (by simp)]

theorem residue_corrupt (frame : List UInt8) (e : Block UInt8 frame.length) :
    residue (corrupt frame e) = residue frame + crcRegister.run 0 (flippedBits e) := by
  have hlen : (lineBits frame).length = (lineBits e.toList).length := by
    rw [length_lineBits, length_lineBits, Block.length_toList]
  have hsum : crcRegister.run (⟨0xFFFF⟩ + 0)
    (List.zipWith xor (lineBits frame) (lineBits e.toList)) =
      crcRegister.run ⟨0xFFFF⟩ (lineBits frame) + crcRegister.run 0 (lineBits e.toList) :=
        crcRegister.run_xor hlen
  rw [add_zero] at hsum
  rw [residue, corrupt, lineBits_xor e.length_toList.symm, hsum]
  rfl

theorem length_wrapRtu (unitId : UInt8) (pdu : PDU) :
    (wrapRtu unitId pdu).length = pdu.serialize.length + 3 := by
  simp [wrapRtu]

theorem unwrapRtu_corrupt (unitId : UInt8) (pdu : PDU) (e : Block UInt8 (wrapRtu unitId pdu).length)
    (h : crcRegister.run 0 (flippedBits e) ≠ 0) :
    unwrapRtu (.ofList (corrupt (wrapRtu unitId pdu) e)) = .ok (.fail .crcMismatch) := by
  have hpos := serialize_length_pos pdu
  have hlen : (corrupt (wrapRtu unitId pdu) e).length = pdu.serialize.length + 3 := by
    rw [corrupt, List.length_zipWith, Block.length_toList, Nat.min_self, length_wrapRtu]
  rwa [unwrapRtu_crcMismatch (by omega), residue_corrupt, residue_wrapRtu, zero_add]

/-! ### Bursts -/

/-- Every burst of up to sixteen bits is detected, wherever it lies. -/
theorem burst_detected (unitId : UInt8) (pdu : PDU) (e : Block UInt8 (wrapRtu unitId pdu).length)
    (hset : true ∈ flippedBits e) (p : ℕ)
    (hwindow : ∀ k, (flippedBits e)[k]? = some true → p ≤ k ∧ k < p + 16) :
    unwrapRtu (.ofList (corrupt (wrapRtu unitId pdu) e)) = .ok (.fail .crcMismatch) :=
  unwrapRtu_corrupt unitId pdu e
    (crcRegister.run_burst crcStep_injective crcTaps crcTap_independent hset hwindow)

/-- Two flipped bits on either side of the boundary between data and CRC. -/
theorem burst_detected_straddling :
    unwrapRtu (.ofList (corrupt (wrapRtu 1 (.makeStandard .readHoldingRegisters [0, 1]))
        ⟨[0, 0, 0, 0x80, 1, 0], by rw [length_wrapRtu]; rfl⟩)) = .ok (.fail .crcMismatch) := by
  refine burst_detected 1 (.makeStandard .readHoldingRegisters [0, 1]) ⟨[0, 0, 0, 0x80, 1, 0],
    by rw [length_wrapRtu]; rfl⟩ (by decide) 31 ?_
  intro k hk
  have hall : ∀ k < 48, (lineBits [0, 0, 0, 0x80, 1, 0])[k]? = some true → 31 ≤ k ∧
    k < 31 + 16 := by decide
  exact hall k (List.getElem?_eq_some_iff.mp hk).1 hk

/-! ### Odd patterns -/

theorem ite_xor (b c : Bool) :
    (if xor b c then 1 else 0 : ZMod 2) = (if b then 1 else 0) + if c then 1 else 0 := by
  cases b <;> cases c <;> decide

/-- The parity of a CRC value. -/
def crcParity : CrcWord →+ ZMod 2 where
  toFun x := ∑ i ∈ Finset.range 16, if x.bit i then 1 else 0
  map_zero' := by simp
  map_add' x y := by
    rw [← Finset.sum_add_distrib]
    refine Finset.sum_congr rfl fun i _ => ?_
    rw [CrcWord.bit_add, ite_xor]

theorem crcParity_step (x : CrcWord) : crcParity (crcStep x) = crcParity x := by
  have hshift :
    ∑ i ∈ Finset.range 16, (if x.bit (i + 1) then 1 else 0 : ZMod 2) + (if x.bit 0 then 1 else 0) =
      ∑ i ∈ Finset.range 16, if x.bit i then 1 else 0 := by
    rw [← Finset.sum_range_succ' (fun i => if x.bit i then (1 : ZMod 2) else 0) 16,
      Finset.sum_range_succ, x.bit_of_ge le_rfl]
    simp
  have hpoly : ∑ i ∈ Finset.range 16, (if x.bit 0 && crcPoly.bit i then 1 else 0 : ZMod 2) =
      if x.bit 0 then 1 else 0 := by
    cases x.bit 0 <;> decide
  change ∑ i ∈ Finset.range 16, (if (crcStep x).bit i then 1 else 0 : ZMod 2) =
    ∑ i ∈ Finset.range 16, if x.bit i then 1 else 0
  simp only [crcStep_bit, ite_xor, Finset.sum_add_distrib, hpoly]
  exact hshift

/-! ### Two ones -/

/-- A round on the value of a register. -/
def crcRound (c : ℕ) : ℕ := if c % 2 = 1 then (c / 2) ^^^ 0xA001 else c / 2

/-- Rounds on a value that is computed before the next one; zero stays zero. -/
def crcRounds : ℕ → ℕ → ℕ
  | 0, c => c
  | _ + 1, 0 => 0
  | n + 1, c + 1 => crcRounds n (crcRound (c + 1))

theorem crcRounds_zero (n : ℕ) : crcRounds n 0 = 0 := by
  cases n <;> rfl

theorem toNat_crcBit (x : UInt16) : (crcBit x).toNat = crcRound x.toNat := by
  have hmask := Nat.and_one_is_mod x.toNat
  have hlow : x &&& 1 ≠ 0 ↔ x.toNat % 2 = 1 := by
    rw [ne_eq, ← UInt16.toNat_inj, UInt16.toNat_and]
    simp only [UInt16.reduceToNat, hmask]
    omega
  have hhalf : (x >>> 1).toNat = x.toNat / 2 := by
    simp [UInt16.toNat_shiftRight, Nat.shiftRight_eq_div_pow]
  unfold crcBit crcRound
  split_ifs with h h' h'
  · rw [UInt16.toNat_xor, hhalf]
    rfl
  · exact absurd (hlow.mp h) h'
  · exact absurd (hlow.mpr h') h
  · exact hhalf

theorem toNat_crcBit_iterate (n : ℕ) (x : UInt16) : (crcBit^[n] x).toNat = crcRounds n x.toNat := by
  induction n generalizing x with
  | zero => rfl
  | succ n ih =>
    rw [Function.iterate_succ_apply, ih, toNat_crcBit]
    cases x.toNat with
    | zero => exact crcRounds_zero n
    | succ c => rfl

theorem crcStep_period_iff (n : ℕ) : crcStep^[n] ⟨1⟩ = ⟨1⟩ ↔ crcRounds n 1 = 1 := by
  rw [crcStep_iterate, CrcWord.ext_iff, ← UInt16.toNat_inj, toNat_crcBit_iterate]
  rfl

/-- The input returns after 32767 rounds and not before: 32767 is 7 · 31 · 151, and
none of its maximal proper divisors is a period. -/
theorem crcStep_period : Function.minimalPeriod crcStep ⟨1⟩ = 32767 := by
  refine ShiftRegister.minimalPeriod_eq ((crcStep_period_iff _).mpr (by decide +kernel)) ?_
  intro p hp hdvd
  have hfactors : p = 7 ∨ p = 31 ∨ p = 151 := by
    rw [show 32767 = 7 * (31 * 151) by decide, hp.dvd_mul, hp.dvd_mul,
      Nat.prime_dvd_prime_iff_eq hp (by norm_num), Nat.prime_dvd_prime_iff_eq hp (by norm_num),
      Nat.prime_dvd_prime_iff_eq hp (by norm_num)] at hdvd
    exact hdvd
  rcases hfactors with rfl | rfl | rfl
  · exact mt (crcStep_period_iff _).mp (by decide +kernel)
  · exact mt (crcStep_period_iff _).mp (by decide +kernel)
  · exact mt (crcStep_period_iff _).mp (by decide +kernel)

theorem run_ne_zero_of_odd {bs : List Bool} (hodd : Odd (bs.count true)) :
    crcRegister.run 0 bs ≠ 0 :=
  crcRegister.run_ne_zero_of_odd crcParity crcParity_step (by decide) hodd

theorem run_ne_zero_of_two {bs : List Bool} (hlen : bs.length ≤ 32767) (htwo : bs.count true = 2) :
    crcRegister.run 0 bs ≠ 0 :=
  crcRegister.run_pair crcStep_injective (hlen.trans_eq crcStep_period.symm) htwo

/-- The check sees every odd number of flipped bits, and in frames of up to 4095
bytes every one, two or three. -/
theorem flips_detected (unitId : UInt8) (pdu : PDU) (e : Block UInt8 (wrapRtu unitId pdu).length)
    (hflips : Odd ((flippedBits e).count true) ∨
      (wrapRtu unitId pdu).length ≤ 4095 ∧ (flippedBits e).count true ∈ [1, 2, 3]) :
    unwrapRtu (.ofList (corrupt (wrapRtu unitId pdu) e)) = .ok (.fail .crcMismatch) := by
  apply unwrapRtu_corrupt
  have hlen : (flippedBits e).length = 8 * (wrapRtu unitId pdu).length := by
    rw [flippedBits, length_lineBits, Block.length_toList]
  rcases hflips with hodd | ⟨hsize, hfew⟩
  · exact run_ne_zero_of_odd hodd
  · simp only [List.mem_cons, List.not_mem_nil, or_false] at hfew
    rcases hfew with hone | htwo | hthree
    · exact run_ne_zero_of_odd (by rw [hone]; decide)
    · exact run_ne_zero_of_two (by omega) htwo
    · exact run_ne_zero_of_odd (by rw [hthree]; decide)

theorem flips_detected_two :
    unwrapRtu (.ofList (corrupt (wrapRtu 1 (.makeStandard .readHoldingRegisters [0, 1]))
        ⟨[4, 0, 0, 0, 0, 0x40], by rw [length_wrapRtu]; rfl⟩)) = .ok (.fail .crcMismatch) :=
  flips_detected 1 (.makeStandard .readHoldingRegisters [0, 1])
    ⟨[4, 0, 0, 0, 0, 0x40], by rw [length_wrapRtu]; rfl⟩
    (Or.inr ⟨by decide, by decide⟩)

end ModbusPp.FrameCodec

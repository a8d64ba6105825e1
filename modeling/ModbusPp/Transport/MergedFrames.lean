import ModbusPp.Core.PduPrefix
import ModbusPp.Transport.ErrorDetection

/-! Bursts of more than one frame. The RTU receiver returns all that came in before the line
went quiet, and the check then runs over all of it. A complete frame brings the register to
zero, where the frame behind it does not expect it: a second frame is always seen. Zero
bytes are not: they leave the register at zero, and the CRC before them is taken for data. -/

namespace ModbusPp.FrameCodec

open Foundation

/-- The contents of the register before a frame. -/
def crcStart : CrcWord := ⟨0xFFFF⟩

theorem residue_append {frame : List UInt8} (hframe : residue frame = 0) (rest : List UInt8) :
    residue (frame ++ rest) = crcRegister.run 0 (lineBits rest) := by
  have hsplit : lineBits (frame ++ rest) = lineBits frame ++ lineBits rest := List.flatMap_append
  rw [residue] at hframe
  rw [residue, hsplit, ShiftRegister.run_append, hframe]

theorem run_frame {frame : List UInt8} (hframe : residue frame = 0) (x : CrcWord) :
    crcRegister.run x (lineBits frame) = crcStep^[8 * frame.length] (x + crcStart) := by
  have hoff : x = crcStart + (x + crcStart) := by
    rw [add_comm x, ← add_assoc, crcRegister.add_self, zero_add]
  have hstart : crcRegister.run crcStart (lineBits frame) = 0 := hframe
  conv_lhs => rw [hoff]
  rw [crcRegister.run_add, hstart, zero_add, length_lineBits]
  rfl

theorem residue_two {frame frame' : List UInt8} (hframe : residue frame = 0)
    (hframe' : residue frame' = 0) :
    residue (frame ++ frame') ≠ 0 := by
  have hzero : crcStep^[8 * frame'.length] 0 = 0 := iterate_map_zero crcStep _
  rw [residue_append hframe, run_frame hframe', zero_add, ← hzero]
  exact (crcStep_injective.iterate _).ne (by decide)

theorem crcStart_period_iff (n : ℕ) : crcStep^[n] crcStart = crcStart ↔
    crcRounds n 0xFFFF = 0xFFFF := by
  rw [crcStart, crcStep_iterate, CrcWord.ext_iff, ← UInt16.toNat_inj, toNat_crcBit_iterate]
  rfl

theorem crcStart_period : Function.minimalPeriod crcStep crcStart = 32767 := by
  refine ShiftRegister.minimalPeriod_eq ((crcStart_period_iff _).mpr (by decide +kernel)) ?_
  intro p hp hdvd
  have hfactors : p = 7 ∨ p = 31 ∨ p = 151 := by
    rw [show 32767 = 7 * (31 * 151) by decide, hp.dvd_mul, hp.dvd_mul,
      Nat.prime_dvd_prime_iff_eq hp (by norm_num), Nat.prime_dvd_prime_iff_eq hp (by norm_num),
      Nat.prime_dvd_prime_iff_eq hp (by norm_num)] at hdvd
    exact hdvd
  rcases hfactors with rfl | rfl | rfl
  · exact mt (crcStart_period_iff _).mp (by decide +kernel)
  · exact mt (crcStart_period_iff _).mp (by decide +kernel)
  · exact mt (crcStart_period_iff _).mp (by decide +kernel)

/-- Three complete frames pass the check together only if the one in the middle is a
multiple of 32767 bytes long. -/
theorem residue_three {first middle last : List UInt8} (hfirst : residue first = 0)
    (hmiddle : residue middle = 0) (hlast : residue last = 0) :
    residue (first ++ middle ++ last) = 0 ↔ 32767 ∣ middle.length := by
  have hsplit : lineBits (middle ++ last) = lineBits middle ++ lineBits last := List.flatMap_append
  have hzero : crcStep^[8 * last.length] 0 = 0 := iterate_map_zero crcStep _
  have hperiod : crcStep^[8 * middle.length] crcStart = crcStart ↔ 32767 ∣ 8 * middle.length := by
    rw [← crcStart_period]
    exact Function.isPeriodicPt_iff_minimalPeriod_dvd
  have hcancel (x : CrcWord) : x + crcStart = 0 ↔ x = crcStart := by
    rw [← crcRegister.add_self crcStart, add_left_inj]
  rw [List.append_assoc, residue_append hfirst, hsplit, ShiftRegister.run_append,
    run_frame hmiddle, zero_add, run_frame hlast, ← hzero, (crcStep_injective.iterate _).eq_iff,
    hcancel, hperiod]
  omega

theorem lineBits_zeros (n : ℕ) : ∀ b ∈ lineBits (List.replicate n 0), b = false := by
  intro b hb
  obtain ⟨byte, hbyte, hbit⟩ := List.mem_flatMap.mp hb
  rw [List.eq_of_mem_replicate hbyte] at hbit
  have hall : ∀ b ∈ byteBits 0, b = false := by decide
  exact hall b hbit

theorem residue_zeros {frame : List UInt8} (hframe : residue frame = 0) (n : ℕ) :
    residue (frame ++ List.replicate n 0) = 0 := by
  rw [residue_append hframe]
  exact crcRegister.run_zero_quiet (lineBits_zeros n)

theorem unwrapRtu_append {frame : List UInt8} (hmin : 4 ≤ frame.length) (rest : List UInt8) :
    unwrapRtu (.ofList (frame ++ rest)) = .ok (.fail .crcMismatch) ↔ residue (frame ++ rest) ≠ 0 :=
  unwrapRtu_crcMismatch (by rw [List.length_append]; omega)

theorem length_wrapRtu_min (unitId : UInt8) (pdu : PDU) : 4 ≤ (wrapRtu unitId pdu).length := by
  have hpos := serialize_length_pos pdu
  rw [length_wrapRtu]
  omega

/-- Frames that run together on the line are never decoded as one: two of them never pass
the check, and three only if the one in the middle is a multiple of 32767 bytes long. -/
theorem merged_frames_rejected (unitId unitId' unitId'' : UInt8) (pdu pdu' pdu'' : PDU) :
    unwrapRtu (.ofList (wrapRtu unitId pdu ++ wrapRtu unitId' pdu')) = .ok (.fail .crcMismatch) ∧
    (unwrapRtu (.ofList (wrapRtu unitId pdu ++ wrapRtu unitId' pdu' ++ wrapRtu unitId'' pdu'')) =
      .ok (.fail .crcMismatch) ↔
      ¬32767 ∣ (wrapRtu unitId' pdu').length) := by
  have hmin := length_wrapRtu_min unitId pdu
  constructor
  · rw [unwrapRtu_append hmin]
    exact residue_two (residue_wrapRtu unitId pdu) (residue_wrapRtu unitId' pdu')
  · rw [List.append_assoc, unwrapRtu_append hmin, ← List.append_assoc, ne_eq,
      residue_three (residue_wrapRtu unitId pdu) (residue_wrapRtu unitId' pdu')
        (residue_wrapRtu unitId'' pdu'')]

/-- What a frame and the zero bytes behind it have behind the PDU. -/
def paddedTail (unitId : UInt8) (pdu : PDU) (n : ℕ) : List UInt8 :=
  [loByte (crc16 (unitId :: pdu.serialize)), hiByte (crc16 (unitId :: pdu.serialize))] ++
    List.replicate n 0

/-- A frame followed by zero bytes passes the check, and what is parsed as a PDU is all of
it but the unit and the last two bytes. -/
theorem unwrapRtu_padded (unitId : UInt8) (pdu : PDU) (n : ℕ) :
    unwrapRtu (.ofList (wrapRtu unitId pdu ++ List.replicate n 0)) =
      .ok ((PDU.parse (pdu.serialize ++ (paddedTail unitId pdu n).take n)).andThen fun decoded =>
        .value (unitId, decoded)) := by
  have hpos := serialize_length_pos pdu
  have hlen : (paddedTail unitId pdu n).length = n + 2 := by simp [paddedTail]
  obtain ⟨lo, hi, htail⟩ := List.length_eq_two.mp
    (show ((paddedTail unitId pdu n).drop n).length = 2 by rw [List.length_drop]; omega)
  have hframe : wrapRtu unitId pdu ++ List.replicate n 0 =
      unitId :: (pdu.serialize ++ (paddedTail unitId pdu n).take n) ++ [lo, hi] := by
    rw [← htail, List.cons_append, List.append_assoc, List.take_append_drop]
    simp [wrapRtu, paddedTail]
  have hzero := residue_zeros (residue_wrapRtu unitId pdu) n
  rw [hframe, residue_eq_zero_iff] at hzero
  rw [hframe, unwrapRtu_eq unitId (by rw [List.length_append]; omega), if_neg (not_not.mpr hzero)]

/-- Zero bytes behind a frame are never seen by the check. They do an extended PDU no harm,
as it says where it ends; a standard one is taken for a longer one, with its own CRC and
some of the zeros as data. -/
theorem padded_frames (unitId : UInt8) {pdu : PDU} (hpdu : pdu.RoundTrips) (n : ℕ) :
    unwrapRtu (.ofList (wrapRtu unitId pdu ++ List.replicate n 0)) = .ok (.value (unitId,
      if pdu.isExtended then pdu
      else .makeStandard pdu.functionCode (pdu.payload ++ (paddedTail unitId pdu n).take n))) := by
  rw [unwrapRtu_padded]
  by_cases hext : pdu.isExtended = true
  · rw [hpdu.parse_append hext, if_pos hext]
    rfl
  · obtain ⟨-, hfc, hstd⟩ | ⟨hdr, hhdr, -⟩ := hpdu.cases
    · have hser : pdu.serialize = pdu.functionCode.byte :: pdu.payload := by rw [hstd]; rfl
      rw [if_neg hext, hser, List.cons_append, PDU.parse, if_pos hfc]
      rfl
    · exact absurd (congrArg Option.isSome hhdr) hext

/-- Two zeros behind a read request put its CRC into the data. -/
theorem padded_frames_two :
    unwrapRtu (.ofList
      (wrapRtu 1 (.makeStandard .readHoldingRegisters [0, 0, 0, 1]) ++ List.replicate 2 0)) =
      .ok (.value (1, .makeStandard .readHoldingRegisters [0, 0, 0, 1, 0x84, 0x0A])) := by
  have hpdu : PDU.RoundTrips (.makeStandard .readHoldingRegisters [0, 0, 0, 1]) := rfl
  have htail : (paddedTail 1 (.makeStandard .readHoldingRegisters [0, 0, 0, 1]) 2).take 2 =
      [0x84, 0x0A] := by
    decide +kernel
  rw [padded_frames 1 hpdu 2, htail]
  rfl

end ModbusPp.FrameCodec

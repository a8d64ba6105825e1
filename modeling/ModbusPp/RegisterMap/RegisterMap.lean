import ModbusPp.Foundation.Slots
import ModbusPp.RegisterMap.RegisterDescriptor

/-! Typed register maps over a flat buffer (`register_map.hpp`). The slots of the
descriptors follow each other; they are isolated exactly if every descriptor counts all
the registers of its type and the counts add up to a 16-bit number. -/

namespace ModbusPp

open Foundation RegisterMap

/-- The descriptors of a `RegisterMap` that compiles; the fold over their counts is an
`int`. -/
structure RegisterMap where
  descriptors : List RegisterDescriptor
  nonempty : descriptors ≠ []
  fits : (descriptors.map fun d => d.count.toNat).sum < 2 ^ 31
  apart : noOverlaps descriptors = true

namespace RegisterMap

/-- The registers that `encode_register` writes. -/
def registersFor : (type : RegisterType) → Endian.ByteOrder → UInt16 → type.Value → List UInt16
  | .uint16, _, _, value => [value]
  | .int16, _, _, value => [value.toUInt16]
  | .uint32, order, _, value => List.ofFn (TypeCodec.encodeUint32 order value)
  | .int32, order, _, value => List.ofFn (TypeCodec.encodeInt32 order value)
  | .float32, order, _, value => List.ofFn (TypeCodec.encodeFloat order value)
  | .float64, order, _, value => List.ofFn (TypeCodec.encodeDouble order value)
  | .string, _, count, value => TypeCodec.encodeString value count

def valueFrom : (type : RegisterType) → Endian.ByteOrder → UInt16 → Span UInt16 → Checked type.Value
  | .uint16, _, _, regs => regs.read 0
  | .int16, _, _, regs => do return (← regs.read 0).toInt16
  | .uint32, order, _, regs => do
    return TypeCodec.decodeUint32 order ![← regs.read 0, ← regs.read 1]
  | .int32, order, _, regs => do
    return TypeCodec.decodeInt32 order ![← regs.read 0, ← regs.read 1]
  | .float32, order, _, regs => do
    return TypeCodec.decodeFloat order ![← regs.read 0, ← regs.read 1]
  | .float64, order, _, regs => do
    return TypeCodec.decodeDouble order
      ![← regs.read 0, ← regs.read 1, ← regs.read 2, ← regs.read 3]
  | .string, _, count, regs => TypeCodec.decodeString regs count

/-- Encode into the registers from `off` on. -/
def encodeRegister (d : RegisterDescriptor) (value : d.type.Value) (regs : List UInt16) (off : ℕ) :
    Checked (List UInt16) :=
  store regs off (registersFor d.type d.order d.count value)

def decodeRegister (d : RegisterDescriptor) (regs : Span UInt16) : Checked d.type.Value :=
  valueFrom d.type d.order d.count regs

section Values

variable {type : RegisterType} {order : Endian.ByteOrder} {count : UInt16}
  {regs regs' : Span UInt16}

theorem length_registersFor (htype : type ≠ .string) (value : type.Value) :
    (registersFor type order count value).length = (defaultRegisterCount type).toNat := by
  cases type with
  | string => exact (htype rfl).elim
  | uint16 | int16 => rfl
  | uint32 | int32 | float32 | float64 => exact List.length_ofFn

theorem length_registersFor_le (hwide : defaultRegisterCount type ≤ count) (value : type.Value) :
    (registersFor type order count value).length ≤ count.toNat := by
  by_cases htype : type = .string
  · subst htype
    exact (TypeCodec.length_encodeString value count).le
  · rw [length_registersFor htype]
    exact hwide

theorem valueFrom_congr (hwide : defaultRegisterCount type ≤ count)
    (h : ∀ k < count.toNat, regs.read k = regs'.read k) :
    valueFrom type order count regs = valueFrom type order count regs' := by
  have hread {k : ℕ} (hk : k < (defaultRegisterCount type).toNat) : regs.read k = regs'.read k :=
    h k (hk.trans_le hwide)
  cases type with
  | uint16 => exact hread (k := 0) (by decide)
  | int16 => simp only [valueFrom, hread (k := 0) (by decide)]
  | uint32 | int32 | float32 =>
      simp only [valueFrom, hread (k := 0) (by decide), hread (k := 1) (by decide)]
  | float64 =>
    simp only [valueFrom, hread (k := 0) (by decide), hread (k := 1) (by decide),
      hread (k := 2) (by decide), hread (k := 3) (by decide)]
  | string => exact TypeCodec.decodeString_congr h

/-- A numeric decoder gives the value back from its registers. -/
theorem valueFrom_registersFor (htype : type ≠ .string) (value : type.Value)
    (h : ∀ k x, (registersFor type order count value)[k]? = some x → regs.read k = .ok x) :
    valueFrom type order count regs = .ok value := by
  have hpair (f : Fin 2 → UInt16) : ![f 0, f 1] = f := by funext i; fin_cases i <;> rfl
  have hquad (f : Fin 4 → UInt16) : ![f 0, f 1, f 2, f 3] = f := by funext i; fin_cases i <;> rfl
  cases type with
  | string => exact (htype rfl).elim
  | uint16 => exact h 0 value rfl
  | int16 =>
    rw [valueFrom, h 0 _ rfl]
    rfl
  | uint32 =>
    rw [valueFrom, h 0 _ rfl, h 1 _ rfl]
    exact congrArg Except.ok
      ((congrArg _ (hpair _)).trans ((TypeCodec.exact_uint32 order).decodeRegs_encodeRegs value))
  | int32 =>
    rw [valueFrom, h 0 _ rfl, h 1 _ rfl]
    exact congrArg Except.ok
      ((congrArg _ (hpair _)).trans ((TypeCodec.exact_int32 order).decodeRegs_encodeRegs value))
  | float32 =>
    rw [valueFrom, h 0 _ rfl, h 1 _ rfl]
    exact congrArg Except.ok
      ((congrArg _ (hpair _)).trans ((TypeCodec.exact_float order).decodeRegs_encodeRegs value))
  | float64 =>
    rw [valueFrom, h 0 _ rfl, h 1 _ rfl, h 2 _ rfl, h 3 _ rfl]
    exact congrArg Except.ok
      ((congrArg _ (hquad _)).trans ((TypeCodec.exact_double order).decodeRegs_encodeRegs value))

end Values

/-- The lengths of the slots. -/
def counts (ds : List RegisterDescriptor) : List ℕ := ds.map fun d => d.count.toNat

def totalRegisterCount (ds : List RegisterDescriptor) : UInt16 := UInt16.ofNat (counts ds).sum

/-- The offset of descriptor `i`, in 16 bits. -/
def registerOffset (ds : List RegisterDescriptor) : (i : ℕ) → i ≤ ds.length → UInt16
  | 0, _ => 0
  | i + 1, h => registerOffset ds i (Nat.le_of_succ_le h) + ds[i].count

variable (m : RegisterMap)

abbrev Index := Fin m.descriptors.length

def descriptorAt (i : m.Index) : RegisterDescriptor := m.descriptors[i]

def totalRegisters : ℕ := (totalRegisterCount m.descriptors).toNat

def offset (i : m.Index) : ℕ := (registerOffset m.descriptors i i.isLt.le).toNat

def encode (i : m.Index) (value : (m.descriptorAt i).type.Value)
    (regs : List UInt16) : Checked (List UInt16) :=
  encodeRegister (m.descriptorAt i) value regs (m.offset i)

def decode (i : m.Index) (regs : List UInt16) : Checked (m.descriptorAt i).type.Value :=
  decodeRegister (m.descriptorAt i)
    ((Span.ofList regs).sub (m.offset i) (m.descriptorAt i).count.toNat)

/-- A register of the slot. -/
def InSlot (i : m.Index) (k : ℕ) : Prop :=
  m.offset i ≤ k ∧ k < m.offset i + (m.descriptorAt i).count.toNat

/-- The slots are isolated, in every buffer that holds the map. -/
structure Isolated : Prop where
  below : ∀ i, m.offset i + (m.descriptorAt i).count.toNat ≤ m.totalRegisters
  frame : ∀ i value regs, m.totalRegisters ≤ regs.length →
    ∃ regs', m.encode i value regs = .ok regs' ∧ regs'.length = regs.length ∧
      ∀ k, ¬m.InSlot i k → regs'[k]? = regs[k]?
  others : ∀ i j, i ≠ j → ∀ value regs regs', m.encode i value regs = .ok regs' →
    m.decode j regs' = m.decode j regs
  depends : ∀ i regs regs', (∀ k, m.InSlot i k → regs'[k]? = regs[k]?) →
    m.decode i regs' = m.decode i regs
  roundTrip : ∀ i, (m.descriptorAt i).type ≠ .string → ∀ value regs regs',
    m.encode i value regs = .ok regs' →
    m.decode i regs' = .ok value

theorem length_counts (ds : List RegisterDescriptor) : (counts ds).length = ds.length :=
  List.length_map _

theorem registerOffset_toNat (ds : List RegisterDescriptor) (i : ℕ) (h : i ≤ ds.length) :
    (registerOffset ds i h).toNat = slotStart (counts ds) i % 65536 := by
  induction i with
  | zero => rfl
  | succ i ih =>
    have hi : i < (counts ds).length := by rw [length_counts]; exact h
    rw [registerOffset, UInt16.toNat_add, ih, slotStart_succ hi]
    simp [counts]

variable {m : RegisterMap}

theorem totalRegisters_eq (m : RegisterMap) :
    m.totalRegisters = (counts m.descriptors).sum % 65536 :=
  UInt16.toNat_ofNat'

theorem count_at (i : m.Index) (h : (i : ℕ) < (counts m.descriptors).length) :
    (counts m.descriptors)[(i : ℕ)] = (m.descriptorAt i).count.toNat := by
  simp [counts, descriptorAt]

theorem below_iff (m : RegisterMap) :
    (∀ i, m.offset i + (m.descriptorAt i).count.toNat ≤ m.totalRegisters) ↔
      (counts m.descriptors).sum < 65536 := by
  have hlen := length_counts m.descriptors
  constructor
  · intro hbelow
    have hstart : ∀ i ≤ m.descriptors.length, slotStart (counts m.descriptors) i < 65536 := by
      intro i
      induction i with
      | zero => exact fun _ => Nat.zero_lt_succ _
      | succ i ih =>
        intro hi
        have hslot := hbelow ⟨i, hi⟩
        have htotal := totalRegisters_eq m
        rw [slotStart_succ (by omega), count_at ⟨i, hi⟩]
        rw [offset, registerOffset_toNat, Nat.mod_eq_of_lt (ih (by omega))] at hslot
        omega
    rw [← slotStart_length, hlen]
    exact hstart _ le_rfl
  · intro hsum i
    have hi : (i : ℕ) < (counts m.descriptors).length := by rw [hlen]; exact i.isLt
    have hend := (slotStart_add_le hi hi).trans_eq (slotStart_length _)
    rw [count_at i hi] at hend
    rw [totalRegisters_eq, Nat.mod_eq_of_lt hsum, offset, registerOffset_toNat,
      Nat.mod_eq_of_lt (by omega)]
    exact hend

theorem slots_apart (hsum : (counts m.descriptors).sum < 65536) {i j : m.Index}
    (hne : i ≠ j) {k : ℕ} (hk : m.InSlot j k) : ¬m.InSlot i k := by
  have hlen := length_counts m.descriptors
  have hstart (i : m.Index) : m.offset i = slotStart (counts m.descriptors) i := by
    have hi : (i : ℕ) ≤ (counts m.descriptors).length := by rw [hlen]; exact i.isLt.le
    have hle := (slotStart_mono (counts m.descriptors) hi).trans_eq (slotStart_length _)
    rw [offset, registerOffset_toNat, Nat.mod_eq_of_lt (by omega)]
  have hend {i j : m.Index} (h : i < j) :
      m.offset i + (m.descriptorAt i).count.toNat ≤ m.offset j := by
    have hi : (i : ℕ) < (counts m.descriptors).length := by rw [hlen]; exact i.isLt
    rw [hstart, hstart, ← count_at i hi]
    exact slotStart_add_le hi h
  intro hk'
  have hj := hk.1
  have hj' := hk.2
  have hi := hk'.1
  have hi' := hk'.2
  rcases lt_or_gt_of_ne hne with h | h
  · have h := hend h
    omega
  · have h := hend h
    omega

theorem decode_congr {i : m.Index}
    (hwide : defaultRegisterCount (m.descriptorAt i).type ≤ (m.descriptorAt i).count)
    {regs regs' : List UInt16} (h : ∀ k, m.InSlot i k → regs'[k]? = regs[k]?) :
    m.decode i regs' = m.decode i regs := by
  refine valueFrom_congr hwide fun k hk => ?_
  have hreg := h (m.offset i + k) ⟨by omega, by omega⟩
  simp only [Span.read, Span.sub, Span.ofList, Nat.zero_add, hreg]

section Wide

variable {i : m.Index} {value : (m.descriptorAt i).type.Value} {regs regs' : List UInt16}

theorem length_encode_le
    (hwide : defaultRegisterCount (m.descriptorAt i).type ≤ (m.descriptorAt i).count)
    (value : (m.descriptorAt i).type.Value) :
    (registersFor (m.descriptorAt i).type (m.descriptorAt i).order
      (m.descriptorAt i).count value).length ≤
      (m.descriptorAt i).count.toNat :=
  length_registersFor_le hwide value

theorem encode_outside
    (hwide : defaultRegisterCount (m.descriptorAt i).type ≤ (m.descriptorAt i).count)
    (h : m.encode i value regs = .ok regs') {k : ℕ} (hk : ¬m.InSlot i k) :
    regs'[k]? = regs[k]? := by
  have hlen := length_encode_le hwide value
  refine store_get_outside h ?_
  by_contra hin
  exact hk ⟨by omega, by omega⟩

theorem encode_ok (hwide : defaultRegisterCount (m.descriptorAt i).type ≤ (m.descriptorAt i).count)
    (value : (m.descriptorAt i).type.Value)
    (hin : m.offset i + (m.descriptorAt i).count.toNat ≤ regs.length) :
    ∃ regs', m.encode i value regs = .ok regs' := by
  have hlen := length_encode_le hwide value
  exact store_inside (by omega)

theorem decode_encode (htype : (m.descriptorAt i).type ≠ .string)
    (h : m.encode i value regs = .ok regs') :
    m.decode i regs' = .ok value := by
  refine valueFrom_registersFor htype value fun k x hx => ?_
  have hreg := store_get_inside h (List.getElem?_eq_some_iff.mp hx).1
  simp only [Span.read, Span.sub, Span.ofList, Nat.zero_add, hreg, hx]

end Wide

instance : (type : RegisterType) → Inhabited type.Value
  | .uint16 => ⟨(0 : UInt16)⟩
  | .int16 => ⟨(0 : Int16)⟩
  | .uint32 => ⟨(0 : UInt32)⟩
  | .int32 => ⟨(0 : Int32)⟩
  | .float32 => ⟨⟨0⟩⟩
  | .float64 => ⟨⟨0⟩⟩
  | .string => ⟨([] : List UInt8)⟩

theorem wide_of_frame {i : m.Index} (hframe : ∀ value regs, m.totalRegisters ≤ regs.length →
    ∃ regs', m.encode i value regs = .ok regs' ∧ regs'.length = regs.length ∧
      ∀ k, ¬m.InSlot i k → regs'[k]? = regs[k]?) :
    defaultRegisterCount (m.descriptorAt i).type ≤ (m.descriptorAt i).count := by
  by_contra hnarrow
  have hcount :
      (m.descriptorAt i).count.toNat < (defaultRegisterCount (m.descriptorAt i).type).toNat :=
    not_le.mp hnarrow
  have htype : (m.descriptorAt i).type ≠ .string := by
    intro htype
    rw [htype] at hcount
    exact absurd hcount (Nat.not_lt_zero _)
  let xs := registersFor (m.descriptorAt i).type (m.descriptorAt i).order
    (m.descriptorAt i).count default
  have hlen : xs.length = (defaultRegisterCount (m.descriptorAt i).type).toNat :=
    length_registersFor htype default
  -- every register of the buffer differs from the first one written outside the slot
  obtain ⟨x, hx⟩ : ∃ x, xs[(m.descriptorAt i).count.toNat]? = some x :=
    ⟨_, List.getElem?_eq_getElem (by omega)⟩
  let regs := List.replicate (m.totalRegisters + m.offset i + xs.length) (x + 1)
  obtain ⟨regs', hencode, -, hsame⟩ :=
    hframe default regs (by simp only [regs, List.length_replicate]; omega)
  have hwritten :=
    store_get_inside hencode (k := (m.descriptorAt i).count.toNat) (hlen.symm ▸ hcount)
  have hkept :=
    hsame (m.offset i + (m.descriptorAt i).count.toNat) (fun hin => absurd hin.2 (lt_irrefl _))
  rw [hwritten, hx, List.getElem?_replicate, if_pos (by omega)] at hkept
  have hcarry := congrArg UInt16.toNat (Option.some.inj hkept)
  rw [UInt16.toNat_add, UInt16.toNat_one] at hcarry
  omega

/-- The slots are isolated exactly if every descriptor counts at least the registers of
its type and the counts add up to a 16-bit number. -/
theorem isolated_iff (m : RegisterMap) :
    m.Isolated ↔ (∀ d ∈ m.descriptors, defaultRegisterCount d.type ≤ d.count) ∧
      (counts m.descriptors).sum < 65536 := by
  constructor
  · intro h
    refine ⟨fun d hd => ?_, (below_iff m).mp h.below⟩
    obtain ⟨i, hi, rfl⟩ := List.mem_iff_getElem.mp hd
    exact wide_of_frame (i := ⟨i, hi⟩) (h.frame ⟨i, hi⟩)
  · rintro ⟨hwide, hsum⟩
    have hwide (i : m.Index) :
        defaultRegisterCount (m.descriptorAt i).type ≤ (m.descriptorAt i).count :=
      hwide _ (List.getElem_mem _)
    have hbelow := (below_iff m).mpr hsum
    refine ⟨hbelow, fun i value regs hregs => ?_, fun i j hne value regs regs' h => ?_,
      fun i regs regs' h => decode_congr (hwide i) h,
      fun i htype value regs regs' h => decode_encode htype h⟩
    · obtain ⟨regs', h⟩ := encode_ok (hwide i) value ((hbelow i).trans hregs)
      exact ⟨regs', h, store_length h, fun k hk => encode_outside (hwide i) h hk⟩
    · exact decode_congr (hwide j) fun k hk => encode_outside (hwide i) h (slots_apart hsum hne hk)

/-- A float that counts one register, before a status register. -/
def narrowFloat : RegisterMap where
  descriptors :=
    [⟨.float32, 0x0000, 1, .abcd, one_positive⟩, ⟨.uint16, 0x0001, 1, .abcd, one_positive⟩]
  nonempty := by decide
  fits := by decide
  apart := by rw [noOverlaps_iff]; decide

/-- Encoding the float changes the status. -/
theorem narrow_float_overwrites : ¬∀ m : RegisterMap, m.Isolated := by
  intro hisolated
  let float : narrowFloat.Index := ⟨0, by decide⟩
  let status : narrowFloat.Index := ⟨1, by decide⟩
  have hencode : narrowFloat.encode float ⟨0x3F803F80⟩ [0, 0] = .ok [0x3F80, 0x3F80] := by decide
  have hdecode :=
    (hisolated narrowFloat).others float status (by decide) ⟨0x3F803F80⟩ [0, 0] _ hencode
  have hbefore : narrowFloat.decode status [0, 0] = .ok (0 : UInt16) := rfl
  have hafter : narrowFloat.decode status [0x3F80, 0x3F80] = .ok (0x3F80 : UInt16) := rfl
  rw [hbefore, hafter] at hdecode
  have hsame : (0x3F80 : UInt16) = 0 := Except.ok.inj hdecode
  exact absurd hsame (by decide)

end RegisterMap

end ModbusPp

import ModbusPp.RegisterMap.TypeCodec

/-! Register descriptors and the compile-time overlap test (`register_descriptor.hpp`,
`register_map.hpp`). The test compares every pair of descriptors, but by their 16-bit
exclusive ends, and the end of a range that goes up to the last address is zero. -/

namespace ModbusPp.RegisterMap

open Endian

inductive RegisterType
  | uint16
  | int16
  | uint32
  | int32
  | float32
  | float64
  | string
  deriving DecidableEq, Repr

/-- `RegisterValueType`. -/
abbrev RegisterType.Value : RegisterType → Type
  | uint16 => UInt16
  | int16 => Int16
  | uint32 => UInt32
  | int32 => Int32
  | float32 => FloatBits
  | float64 => DoubleBits
  | string => List UInt8

def defaultRegisterCount : RegisterType → UInt16
  | .uint16 | .int16 => 1
  | .uint32 | .int32 | .float32 => 2
  | .float64 => 4
  | .string => 0

/-- A `RegisterDescriptor` that compiles. -/
structure RegisterDescriptor where
  type : RegisterType
  address : UInt16
  count : UInt16
  order : Endian.ByteOrder
  positive : 0 < count

namespace RegisterDescriptor

def endAddress (d : RegisterDescriptor) : UInt16 := d.address + d.count

/-- The addresses of the registers. -/
def range (d : RegisterDescriptor) : Set ℕ :=
  Set.Ico d.address.toNat (d.address.toNat + d.count.toNat)

/-- The ranges have no address in common. -/
def Apart (a b : RegisterDescriptor) : Prop := ∀ n ∈ a.range, n ∉ b.range

/-- The range lies in the 16-bit register space. -/
def InSpace (d : RegisterDescriptor) : Prop := d.address.toNat + d.count.toNat ≤ 65536

instance (d : RegisterDescriptor) : Decidable d.InSpace := inferInstanceAs (Decidable (_ ≤ _))

/-- The range goes up to the last address of the space. -/
def EndsAtTop (d : RegisterDescriptor) : Prop := d.address.toNat + d.count.toNat = 65536

instance (d : RegisterDescriptor) : Decidable d.EndsAtTop := inferInstanceAs (Decidable (_ = _))

end RegisterDescriptor

def descriptorsOverlap (a b : RegisterDescriptor) : Bool :=
  a.address < b.endAddress && b.address < a.endAddress

def noOverlaps : List RegisterDescriptor → Bool
  | first :: second :: rest =>
    !descriptorsOverlap first second && noOverlaps (first :: rest) && noOverlaps (second :: rest)
  | _ => true
termination_by ds => ds.length

variable {a b : RegisterDescriptor} {ds : List RegisterDescriptor}

/-- The recursion visits every pair. -/
theorem noOverlaps_iff (ds : List RegisterDescriptor) :
    noOverlaps ds = true ↔ ds.Pairwise fun a b => descriptorsOverlap a b = false := by
  induction ds using noOverlaps.induct with
  | case1 first second rest ihfirst ihsecond =>
    rw [noOverlaps, Bool.and_eq_true, Bool.and_eq_true, ihfirst, ihsecond, Bool.not_eq_true']
    simp only [List.pairwise_cons, List.mem_cons, forall_eq_or_imp]
    tauto
  | case2 ds hshort =>
    rcases ds with _ | ⟨d, _ | ⟨d', ds⟩⟩
    · simp [noOverlaps]
    · simp [noOverlaps]
    · exact (hshort d d' ds rfl).elim

theorem apart_iff : a.Apart b ↔
    ¬(a.address.toNat < b.address.toNat + b.count.toNat ∧
      b.address.toNat < a.address.toNat + a.count.toNat) := by
  have hapos : 0 < a.count.toNat := a.positive
  have hbpos : 0 < b.count.toNat := b.positive
  constructor
  · rintro h ⟨hab, hba⟩
    exact h (max a.address.toNat b.address.toNat) ⟨by omega, by omega⟩ ⟨by omega, by omega⟩
  · rintro h n ⟨hlow, hhigh⟩ ⟨hlow', hhigh'⟩
    exact h ⟨by omega, by omega⟩

theorem endAddress_toNat (h : a.InSpace) (hend : ¬a.EndsAtTop) :
    a.endAddress.toNat = a.address.toNat + a.count.toNat := by
  have hin : a.address.toNat + a.count.toNat ≤ 65536 := h
  have hne : a.address.toNat + a.count.toNat ≠ 65536 := hend
  rw [RegisterDescriptor.endAddress, UInt16.toNat_add, Nat.mod_eq_of_lt (by omega)]

theorem endAddress_top (h : a.EndsAtTop) : a.endAddress = 0 := by
  apply UInt16.toNat_inj.mp
  rw [RegisterDescriptor.endAddress, UInt16.toNat_add, show a.address.toNat +
    a.count.toNat = 65536 from h]
  rfl

theorem descriptorsOverlap_eq_false (ha : a.InSpace) (hb : b.InSpace) :
    descriptorsOverlap a b = false ↔ a.EndsAtTop ∨ b.EndsAtTop ∨ a.Apart b := by
  rw [descriptorsOverlap, Bool.and_eq_false_iff, decide_eq_false_iff_not, decide_eq_false_iff_not]
  by_cases hatop : a.EndsAtTop
  · rw [endAddress_top hatop]
    exact iff_of_true (.inr (UInt16.not_lt.mpr UInt16.zero_le)) (.inl hatop)
  by_cases hbtop : b.EndsAtTop
  · rw [endAddress_top hbtop]
    exact iff_of_true (.inl (UInt16.not_lt.mpr UInt16.zero_le)) (.inr (.inl hbtop))
  rw [UInt16.lt_iff_toNat_lt, UInt16.lt_iff_toNat_lt, endAddress_toNat ha hatop,
    endAddress_toNat hb hbtop, apart_iff, not_and_or]
  simp only [hatop, hbtop, false_or]

theorem noOverlaps_inSpace (h : ∀ d ∈ ds, d.InSpace) :
    noOverlaps ds = true ↔ ds.Pairwise fun a b => a.EndsAtTop ∨ b.EndsAtTop ∨ a.Apart b := by
  rw [noOverlaps_iff]
  exact List.Pairwise.iff_of_mem fun ha hb => descriptorsOverlap_eq_false (h _ ha) (h _ hb)

/-- The test is exact if no range that ends at the top meets another, or if two ranges
that end below it meet, and only then. -/
theorem noOverlaps_exact_iff (h : ∀ d ∈ ds, d.InSpace) :
    (noOverlaps ds = true ↔ ds.Pairwise fun a b => a.Apart b) ↔
      (ds.Pairwise fun a b => a.EndsAtTop ∨ b.EndsAtTop → a.Apart b) ∨
      ¬(ds.filter fun d => ¬d.EndsAtTop).Pairwise fun a b => a.Apart b := by
  rw [noOverlaps_inSpace h, List.pairwise_filter]
  have hlow : (ds.Pairwise fun a b => decide (¬a.EndsAtTop) = true → decide (¬b.EndsAtTop) = true →
      a.Apart b) ↔
      ds.Pairwise fun a b => a.EndsAtTop ∨ b.EndsAtTop ∨ a.Apart b :=
    List.Pairwise.iff fun a b => by simp only [decide_eq_true_eq]; tauto
  have hall : (ds.Pairwise fun a b => a.Apart b) ↔
      (ds.Pairwise fun a b => a.EndsAtTop ∨ b.EndsAtTop ∨ a.Apart b) ∧
      ds.Pairwise fun a b => a.EndsAtTop ∨ b.EndsAtTop → a.Apart b := by
    rw [← List.pairwise_and_iff]
    exact List.Pairwise.iff fun a b => by tauto
  rw [hlow, hall]
  tauto

theorem one_positive : (0 : UInt16) < 1 := by decide

/-- A temperature, a status and a pressure. -/
def sensors : List RegisterDescriptor :=
  [⟨.float32, 0x0000, 2, .badc, by decide⟩, ⟨.uint16, 0x0002, 1, .abcd, one_positive⟩,
    ⟨.float64, 0x0003, 4, .abcd, by decide⟩]

theorem noOverlaps_exact_sensors : noOverlaps sensors = true ↔
    sensors.Pairwise fun a b => a.Apart b :=
  (noOverlaps_exact_iff (by decide)).mpr (.inl (by simp [sensors, RegisterDescriptor.EndsAtTop]))

/-- The last register of the space. -/
def lastRegister : RegisterDescriptor := ⟨.uint16, 0xFFFF, 1, .abcd, one_positive⟩

/-- A map that holds the last register twice is accepted. -/
theorem last_register_twice : ¬∀ ds : List RegisterDescriptor, (∀ d ∈ ds, d.InSpace) →
    (noOverlaps ds = true ↔ ds.Pairwise fun a b => a.Apart b) := by
  intro hexact
  have haccepted : noOverlaps [lastRegister, lastRegister] = true := by
    rw [noOverlaps_iff]
    decide
  have hapart := (hexact [lastRegister, lastRegister] (by decide)).mp haccepted
  have hself : lastRegister.Apart lastRegister := by simpa using hapart
  have hmem : 65535 ∈ lastRegister.range := by simp [RegisterDescriptor.range, lastRegister]
  exact hself 65535 hmem hmem

end ModbusPp.RegisterMap

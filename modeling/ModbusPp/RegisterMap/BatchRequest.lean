import ModbusPp.Foundation.Span
import ModbusPp.Core.Words
import ModbusPp.Core.Result

/-! The wire format of batch reads (`batch_request.hpp`): a request is a count and
six bytes an item, a response a count and, for each item, its address, a status
byte and a counted list of registers. -/

namespace ModbusPp

open Foundation

/-- The bytes of a register list, high byte first. -/
def registerBytes (regs : List UInt16) : List UInt8 :=
  regs.flatMap fun reg => [hiByte reg, loByte reg]

/-- The registers a byte string holds; an odd last byte is dropped. The source
has this as a loop over index pairs below the size. -/
def registersOf : List UInt8 → List UInt16
  | hi :: lo :: rest => word hi lo :: registersOf rest
  | _ => []

@[simp] theorem registerBytes_nil : registerBytes [] = [] := rfl

@[simp] theorem registerBytes_cons (reg : UInt16) (regs : List UInt16) :
    registerBytes (reg :: regs) = hiByte reg :: loByte reg :: registerBytes regs := rfl

@[simp] theorem length_registerBytes (regs : List UInt16) :
    (registerBytes regs).length = 2 * regs.length := by
  induction regs with
  | nil => rfl
  | cons reg regs ih => simp only [registerBytes_cons, List.length_cons, ih]; omega

theorem length_registersOf (data : List UInt8) : (registersOf data).length = data.length / 2 := by
  induction data using registersOf.induct with
  | case1 hi lo rest ih =>
    rw [registersOf, List.length_cons, ih, List.length_cons, List.length_cons]
    omega
  | case2 data hshort =>
    rcases data with _ | ⟨hi, _ | ⟨lo, rest⟩⟩
    · rfl
    · rw [registersOf, List.length_nil, List.length_singleton]
      exact hshort
    · exact (hshort hi lo rest rfl).elim

/-- Cutting the bytes of a register list at an even index cuts the list. -/
theorem registersOf_take (regs : List UInt16) (n : ℕ) :
    registersOf ((registerBytes regs).take (2 * n)) = regs.take n := by
  induction regs generalizing n with
  | nil => simp [registersOf]
  | cons reg regs ih =>
    cases n with
    | zero => simp [registersOf]
    | succ n =>
      rw [show 2 * (n + 1) = 2 * n + 1 + 1 by ring]
      simp only [registerBytes_cons, List.take_succ_cons, registersOf, word_bytes, ih]

/-- `RegisterType`, cast from a received byte. -/
structure RegisterType where
  byte : UInt8
  deriving DecidableEq, Repr

/-- `ByteOrder`, cast from a received byte. -/
structure ByteOrder where
  byte : UInt8
  deriving DecidableEq, Repr

structure BatchItem where
  startAddress : UInt16
  count : UInt16
  type : RegisterType
  byteOrder : ByteOrder
  deriving DecidableEq, Repr

structure BatchRequest where
  items : List BatchItem
  deriving DecidableEq, Repr

namespace BatchRequest

def itemBytes (item : BatchItem) : List UInt8 :=
  [hiByte item.startAddress, loByte item.startAddress, hiByte item.count, loByte item.count,
    item.type.byte, item.byteOrder.byte]

def serialize (request : BatchRequest) : List UInt8 :=
  let n := UInt16.ofNat request.items.length
  [hiByte n, loByte n] ++ request.items.flatMap itemBytes

/-- The loop of `deserialize`: `n` items from `offset` on. -/
def deserializeItems (data : Span UInt8) : ℕ → ℕ → Checked (List BatchItem)
  | 0, _ => return []
  | n + 1, offset => do
    let startAddress := word (← data.read offset) (← data.read (offset + 1))
    let count := word (← data.read (offset + 2)) (← data.read (offset + 3))
    let type ← data.read (offset + 4)
    let byteOrder ← data.read (offset + 5)
    let items ← deserializeItems data n (offset + 6)
    return ⟨startAddress, count, ⟨type⟩, ⟨byteOrder⟩⟩ :: items

def deserialize (data : Span UInt8) : Checked (Result BatchRequest) := do
  if data.size < 2 then return .fail .deserializationFailed
  let itemCount := word (← data.read 0) (← data.read 1)
  if data.size < 2 + itemCount.toNat * 6 then return .fail .deserializationFailed
  let items ← deserializeItems data itemCount.toNat 2
  return .value ⟨items⟩

end BatchRequest

namespace BatchResponse

/-- One item of a response. -/
structure ItemResult where
  address : UInt16
  registers : List UInt16
  status : StdErrorCode
  deriving DecidableEq, Repr

end BatchResponse

structure BatchResponse where
  results : List BatchResponse.ItemResult
  deriving DecidableEq, Repr

namespace BatchResponse

def itemBytes (item : ItemResult) : List UInt8 :=
  let regCount := UInt16.ofNat item.registers.length
  [hiByte item.address, loByte item.address, UInt8.ofInt item.status.value, hiByte regCount,
    loByte regCount] ++
    registerBytes item.registers

def serialize (response : BatchResponse) : List UInt8 :=
  let n := UInt16.ofNat response.results.length
  [hiByte n, loByte n] ++ response.results.flatMap itemBytes

/-- The status of an item: byte zero is the default code. -/
def statusOf (b : UInt8) : StdErrorCode := if b = 0 then .none else makeErrorCode ⟨b.toNat⟩

/-- The inner loop of `deserialize`: `n` registers from `offset` on. -/
def deserializeRegisters (data : Span UInt8) : ℕ → ℕ → Checked (List UInt16)
  | 0, _ => return []
  | n + 1, offset => do
    let reg := word (← data.read offset) (← data.read (offset + 1))
    let regs ← deserializeRegisters data n (offset + 2)
    return reg :: regs

/-- The outer loop of `deserialize`: `n` items from `offset` on. -/
def deserializeItems (data : Span UInt8) : ℕ → ℕ → List ItemResult → Checked (Result BatchResponse)
  | 0, _, results => return .value ⟨results⟩
  | n + 1, offset, results => do
    if offset + 5 > data.size then return .fail .deserializationFailed
    let address := word (← data.read offset) (← data.read (offset + 1))
    let status := statusOf (← data.read (offset + 2))
    let regCount := word (← data.read (offset + 3)) (← data.read (offset + 4))
    let offset := offset + 5
    if offset + regCount.toNat * 2 > data.size then return .fail .deserializationFailed
    let registers ← deserializeRegisters data regCount.toNat offset
    deserializeItems data n (offset + regCount.toNat * 2)
      (results ++ [⟨address, registers, status⟩])

def deserialize (data : Span UInt8) : Checked (Result BatchResponse) := do
  if data.size < 2 then return .fail .deserializationFailed
  let itemCount := word (← data.read 0) (← data.read 1)
  deserializeItems data itemCount.toNat 2 []

variable {data : Span UInt8} {xs : List UInt8}

theorem deserializeRegisters_inside (h : data.Views xs) {n offset : ℕ}
    (hle : offset + n * 2 ≤ xs.length) :
    ∃ regs, deserializeRegisters data n offset = .ok regs := by
  induction n generalizing offset with
  | zero => exact ⟨[], rfl⟩
  | succ n ih =>
    have hhi := h.read (i := offset) (List.getElem?_eq_getElem (by omega))
    have hlo := h.read (i := offset + 1) (List.getElem?_eq_getElem (by omega))
    obtain ⟨regs, hregs⟩ := ih (show offset + 2 + n * 2 ≤ xs.length by omega)
    exact ⟨_, by rw [deserializeRegisters, hhi, ok_bind, hlo, ok_bind, hregs, ok_bind, pure_eq_ok]⟩

theorem deserializeItems_inside (h : data.Views xs) (n offset : ℕ) (results : List ItemResult) :
    ∃ r, deserializeItems data n offset results = .ok r := by
  induction n generalizing offset results with
  | zero => exact ⟨_, rfl⟩
  | succ n ih =>
    rcases Nat.lt_or_ge xs.length (offset + 5) with hlen | hlen
    · exact ⟨_, by rw [deserializeItems, h.size_eq, if_pos hlen, pure_eq_ok]⟩
    have r₀ := h.read (i := offset) (List.getElem?_eq_getElem (by omega))
    have r₁ := h.read (i := offset + 1) (List.getElem?_eq_getElem (by omega))
    have r₂ := h.read (i := offset + 2) (List.getElem?_eq_getElem (by omega))
    have r₃ := h.read (i := offset + 3) (List.getElem?_eq_getElem (by omega))
    have r₄ := h.read (i := offset + 4) (List.getElem?_eq_getElem (by omega))
    simp only [deserializeItems, h.size_eq, gt_iff_lt, Nat.not_lt.mpr hlen, if_false, r₀, r₁,
      r₂, r₃, r₄, ok_bind]
    split_ifs with hregs
    · exact ⟨_, rfl⟩
    · obtain ⟨regs, heq⟩ := deserializeRegisters_inside h (Nat.not_lt.mp hregs)
      rw [heq, ok_bind]
      exact ih _ _

/-- Decoding a response never leaves its bytes. -/
theorem deserialize_inside (xs : List UInt8) : ∃ r, deserialize (.ofList xs) = .ok r := by
  have h := Span.views_ofList xs
  rcases Nat.lt_or_ge xs.length 2 with hlen | hlen
  · exact ⟨_, by rw [deserialize, h.size_eq, if_pos hlen, pure_eq_ok]⟩
  have r₀ := h.read (i := 0) (List.getElem?_eq_getElem (by omega))
  have r₁ := h.read (i := 1) (List.getElem?_eq_getElem (by omega))
  simp only [deserialize, h.size_eq, Nat.not_lt.mpr hlen, if_false, r₀, r₁, ok_bind]
  exact deserializeItems_inside h _ _ _

end BatchResponse

end ModbusPp

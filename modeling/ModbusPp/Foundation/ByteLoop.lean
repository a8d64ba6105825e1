import Mathlib.Data.List.Range
import Mathlib.Data.UInt
import ModbusPp.Foundation.Run

/-! Loops over an eight-bit counter up to and including a last value. The test `id ≤ last`
alone does not end the loop where the last value is the largest of all; it is left at the
last value, before the counter wraps. -/

namespace ModbusPp.Foundation

variable {ε ι σ ω α : Type}

/-- `for (; id <= last; ++id) { s = body(id, s); if (id == last) break; }` -/
def forBytes (body : UInt8 → σ → Except ε σ) (last id : UInt8) (s : σ) : Except ε σ :=
  if hle : id ≤ last then do
    let s ← body id s
    if hlast : id = last then return s else forBytes body last (id + 1) s
  else return s
termination_by last.toNat - id.toNat
decreasing_by
  rw [UInt8.le_iff_toNat_le] at hle
  rw [← UInt8.toNat_inj] at hlast
  have hbound := last.toNat_lt
  rw [UInt8.toNat_add, UInt8.toNat_one, Nat.mod_eq_of_lt (by omega)]
  omega

/-- The values of the counter. -/
def bytesUpTo (id last : UInt8) : List UInt8 :=
  (List.range' id.toNat (last.toNat + 1 - id.toNat)).map UInt8.ofNat

theorem bytesUpTo_nil {id last : UInt8} (h : ¬id ≤ last) : bytesUpTo id last = [] := by
  rw [UInt8.le_iff_toNat_le] at h
  rw [bytesUpTo, Nat.sub_eq_zero_of_le (by omega)]
  rfl

theorem bytesUpTo_cons {id last : UInt8} (h : id ≤ last) :
    bytesUpTo id last = id :: if id = last then [] else bytesUpTo (id + 1) last := by
  rw [UInt8.le_iff_toNat_le] at h
  rw [bytesUpTo, Nat.succ_sub h, List.range'_succ, List.map_cons, UInt8.ofNat_toNat]
  congr 1
  split_ifs with hlast
  · rw [hlast, Nat.sub_self]
    rfl
  · rw [← UInt8.toNat_inj] at hlast
    have hbound := last.toNat_lt
    rw [bytesUpTo, UInt8.toNat_add, UInt8.toNat_one, Nat.mod_eq_of_lt (by omega)]
    congr 2
    omega

theorem mem_bytesUpTo {id last byte : UInt8} : byte ∈ bytesUpTo id last ↔
    id ≤ byte ∧ byte ≤ last := by
  simp only [bytesUpTo, List.mem_map, List.mem_range'_1, UInt8.le_iff_toNat_le]
  constructor
  · rintro ⟨n, hn, rfl⟩
    have hbound := last.toNat_lt
    rw [UInt8.toNat_ofNat', Nat.mod_eq_of_lt (by omega)]
    omega
  · intro h
    exact ⟨byte.toNat, by omega, UInt8.ofNat_toNat⟩

theorem bytesUpTo_increasing (id last : UInt8) : (bytesUpTo id last).Pairwise (· < ·) := by
  rw [bytesUpTo, List.pairwise_map]
  refine (List.pairwise_lt_range' 1 Nat.one_pos).imp_of_mem ?_
  intro m n hm hn hlt
  have hbound := last.toNat_lt
  rw [List.mem_range'_1] at hm hn
  rw [UInt8.lt_iff_toNat_lt, UInt8.toNat_ofNat', UInt8.toNat_ofNat', Nat.mod_eq_of_lt (by omega),
    Nat.mod_eq_of_lt (by omega)]
  exact hlt

/-- The loop ends, having taken its values in order. -/
theorem forBytes_eq (body : UInt8 → σ → Except ε σ) (last id : UInt8) (s : σ) :
    forBytes body last id s = (bytesUpTo id last).foldlM (fun s id => body id s) s := by
  induction h : last.toNat + 1 - id.toNat generalizing id s with
  | zero =>
    have hle : ¬id ≤ last := by
      rw [UInt8.le_iff_toNat_le]
      omega
    rw [forBytes, dif_neg hle, bytesUpTo_nil hle]
    rfl
  | succ n ih =>
    have hle : id ≤ last := by
      rw [UInt8.le_iff_toNat_le]
      omega
    rw [forBytes, dif_pos hle, bytesUpTo_cons hle, List.foldlM_cons]
    congr 1
    funext s'
    split_ifs with hlast
    · rfl
    · refine ih (id + 1) s' ?_
      rw [← UInt8.toNat_inj] at hlast
      have hbound := last.toNat_lt
      rw [UInt8.toNat_add, UInt8.toNat_one, Nat.mod_eq_of_lt (by omega)]
      omega

/-- A loop that collects what its steps put out. -/
theorem foldlM_collects (step : ι → σ → Except ε (ω × σ)) (out : ω → List α)
    (is : List ι) (acc : List α) (s : σ) :
    is.foldlM (fun (p : List α × σ) i => do
      let (o, s) ← step i p.2
      return (p.1 ++ out o, s)) (acc, s) = (do
      let (os, s) ← runAll step is s
      return (acc ++ os.flatMap out, s)) := by
  induction is generalizing acc s with
  | nil =>
    rw [runAll]
    change Except.ok (acc, s) = Except.ok (acc ++ [], s)
    rw [List.append_nil]
  | cons i is ih =>
    rw [List.foldlM_cons, runAll]
    cases step i s with
    | error e => rfl
    | ok first =>
      change List.foldlM _ (acc ++ out first.1, first.2) is = _
      rw [ih]
      change _ = Except.bind (Except.bind (runAll step is first.2) _) _
      cases runAll step is first.2 with
      | error e => rfl
      | ok others =>
        change Except.ok _ = Except.ok _
        rw [List.flatMap_cons, List.append_assoc]

end ModbusPp.Foundation

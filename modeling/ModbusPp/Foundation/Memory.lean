import Mathlib.Data.List.Range
import Mathlib.Tactic

/-! Memories and the blocks written to them. A cell holds what the last of the blocks that
cover it has put there. -/

namespace ModbusPp.Foundation

variable {α : Type}

/-- Cells to be written from an address on. -/
structure Patch (α : Type) where
  start : ℕ
  cells : List α

namespace Patch

/-- What the patch puts into a cell. -/
def at? (p : Patch α) (n : ℕ) : Option α := if p.start ≤ n then p.cells[n - p.start]? else none

def Covers (p : Patch α) (n : ℕ) : Prop := p.start ≤ n ∧ n < p.start + p.cells.length

theorem at?_eq_none_iff {p : Patch α} {n : ℕ} : p.at? n = none ↔ ¬p.Covers n := by
  rw [at?, Covers]
  split_ifs with hstart
  · rw [List.getElem?_eq_none_iff]
    omega
  · exact iff_of_true rfl fun h => hstart h.1

/-- The memory with the patch written to it. -/
def write (mem : ℕ → α) (p : Patch α) : ℕ → α := fun n => (p.at? n).getD (mem n)

theorem write_outside {mem : ℕ → α} {p : Patch α} {n : ℕ} (h : ¬p.Covers n) :
    write mem p n = mem n := by
  rw [write, at?_eq_none_iff.mpr h, Option.getD_none]

theorem write_inside {mem : ℕ → α} {p : Patch α} {k : ℕ} (h : k < p.cells.length) :
    write mem p (p.start + k) = p.cells[k] := by
  rw [write, at?, if_pos (Nat.le_add_right _ _), Nat.add_sub_cancel_left,
    List.getElem?_eq_getElem h, Option.getD_some]

end Patch

/-- What the last of the patches that cover the cell puts into it. -/
def lastWritten : List (Patch α) → ℕ → Option α
  | [], _ => none
  | p :: ps, n => (lastWritten ps n).or (p.at? n)

/-- A memory after all the patches. -/
theorem foldl_write (ps : List (Patch α)) (mem : ℕ → α) (n : ℕ) :
    ps.foldl Patch.write mem n = (lastWritten ps n).getD (mem n) := by
  induction ps generalizing mem with
  | nil => rfl
  | cons p ps ih =>
    rw [List.foldl_cons, ih, lastWritten, Patch.write]
    cases lastWritten ps n <;> rfl

/-- A stretch of the memory. -/
def window (mem : ℕ → α) (start count : ℕ) : List α :=
  (List.range count).map fun k => mem (start + k)

@[simp] theorem length_window (mem : ℕ → α) (start count : ℕ) :
    (window mem start count).length = count := by
  rw [window, List.length_map, List.length_range]

theorem window_getElem? (mem : ℕ → α) (start : ℕ) {count k : ℕ} (hk : k < count) :
    (window mem start count)[k]? = some (mem (start + k)) := by
  rw [window, List.getElem?_map, List.getElem?_range hk, Option.map_some]

theorem window_congr {mem mem' : ℕ → α} {start count : ℕ}
    (h : ∀ k < count, mem (start + k) = mem' (start + k)) :
    window mem start count = window mem' start count :=
  List.map_congr_left fun k hk => h k (List.mem_range.mp hk)

/-- A slice of a window is a window. -/
theorem window_slice {mem : ℕ → α} {start count first n : ℕ}
    (hstart : start ≤ first) (hend : first + n ≤ start + count) :
    ((window mem start count).drop (first - start)).take n = window mem first n := by
  refine List.ext_getElem? fun k => ?_
  rcases Nat.lt_or_ge k n with hk | hk
  · rw [List.getElem?_take_of_lt hk, List.getElem?_drop, window_getElem? _ _ (by omega),
      window_getElem? _ _ hk]
    congr 2
    omega
  · rw [List.getElem?_eq_none (by rw [List.length_take]; omega),
      List.getElem?_eq_none (by rw [length_window]; exact hk)]

end ModbusPp.Foundation

import ModbusPp.Foundation.Span

/-! A buffer cut into consecutive slots. A store writes a list from an index on, one
element after the other, and faults where it leaves the buffer; the slots follow each
other, so a store that stays in its slot is not seen from another. -/

namespace ModbusPp.Foundation

variable {α : Type} {buf buf' xs : List α} {off : ℕ}

/-- The elements written from an index on. -/
def store (buf : List α) (off : ℕ) : List α → Checked (List α)
  | [] => .ok buf
  | x :: xs => if off < buf.length then store (buf.set off x) (off + 1) xs else .error .outOfRange

theorem store_inside (h : off + xs.length ≤ buf.length) : ∃ buf', store buf off xs = .ok buf' := by
  induction xs generalizing buf off with
  | nil => exact ⟨buf, rfl⟩
  | cons x xs ih =>
    rw [List.length_cons] at h
    rw [store, if_pos (by omega)]
    exact ih (by rw [List.length_set]; omega)

theorem store_length (h : store buf off xs = .ok buf') : buf'.length = buf.length := by
  induction xs generalizing buf off with
  | nil =>
    cases h
    rfl
  | cons x xs ih =>
    rw [store] at h
    split_ifs at h
    rw [ih h, List.length_set]

theorem store_get (h : store buf off xs = .ok buf') (k : ℕ) :
    buf'[k]? = if off ≤ k ∧ k < off + xs.length then xs[k - off]? else buf[k]? := by
  induction xs generalizing buf off with
  | nil =>
    cases h
    rw [if_neg]
    rintro ⟨hle, hlt⟩
    exact absurd hle (not_le.mpr hlt)
  | cons x xs ih =>
    rw [store] at h
    split_ifs at h with hoff
    rw [ih h, List.length_cons]
    rcases Nat.lt_trichotomy k off with hk | rfl | hk
    · rw [if_neg (by omega), if_neg (by omega), List.getElem?_set_ne (by omega)]
    · rw [if_neg (by omega), if_pos (by omega), List.getElem?_set_self hoff, Nat.sub_self,
        List.getElem?_cons_zero]
    · by_cases hin : k < off + 1 + xs.length
      · rw [if_pos (by omega), if_pos (by omega), show k - off = k - (off + 1) + 1 by omega,
          List.getElem?_cons_succ]
      · rw [if_neg (by omega), if_neg (by omega), List.getElem?_set_ne (by omega)]

theorem store_get_outside (h : store buf off xs = .ok buf') {k : ℕ}
    (hk : k < off ∨ off + xs.length ≤ k) :
    buf'[k]? = buf[k]? := by
  rw [store_get h, if_neg (by omega)]

theorem store_get_inside (h : store buf off xs = .ok buf') {k : ℕ} (hk : k < xs.length) :
    buf'[off + k]? = xs[k]? := by
  rw [store_get h, if_pos (by omega), Nat.add_sub_cancel_left]

section Slots

variable {lens : List ℕ} {i j : ℕ}

/-- Where a slot starts, if the slots have these lengths. -/
def slotStart (lens : List ℕ) (i : ℕ) : ℕ := (lens.take i).sum

@[simp] theorem slotStart_zero (lens : List ℕ) : slotStart lens 0 = 0 := rfl

theorem slotStart_succ (h : i < lens.length) :
    slotStart lens (i + 1) = slotStart lens i + lens[i] := by
  rw [slotStart, slotStart, List.take_succ_eq_append_getElem h, List.sum_append, List.sum_singleton]

theorem slotStart_length (lens : List ℕ) : slotStart lens lens.length = lens.sum := by
  rw [slotStart, List.take_length]

theorem slotStart_mono (lens : List ℕ) (h : i ≤ j) : slotStart lens i ≤ slotStart lens j :=
  (List.take_sublist_take_left h).sum_le_sum fun _ _ => Nat.zero_le _

/-- A slot ends before a later one starts. -/
theorem slotStart_add_le (hi : i < lens.length) (h : i < j) :
    slotStart lens i + lens[i] ≤ slotStart lens j :=
  (slotStart_succ hi).symm.trans_le (slotStart_mono lens h)

end Slots

end ModbusPp.Foundation

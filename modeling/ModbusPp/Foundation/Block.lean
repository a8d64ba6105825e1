import Mathlib.Tactic

/-! Lists of a fixed length, the length carried by the type. -/

namespace ModbusPp.Foundation

/-- A list of exactly `n` elements. -/
structure Block (α : Type) (n : ℕ) where
  toList : List α
  length_toList : toList.length = n
  deriving DecidableEq

namespace Block

variable {α : Type} {n m : ℕ}

attribute [simp] length_toList

@[ext] theorem ext {b c : Block α n} (h : b.toList = c.toList) : b = c := by
  cases b; cases c
  simpa using h

/-- The `n` elements of `xs` from index `i` on. -/
def slice (xs : List α) (i n : ℕ) (h : i + n ≤ xs.length) : Block α n :=
  ⟨(xs.drop i).take n, by rw [List.length_take, List.length_drop]; omega⟩

@[simp] theorem slice_toList (xs : List α) (i n : ℕ) (h : i + n ≤ xs.length) :
    (slice xs i n h).toList = (xs.drop i).take n := rfl

def append (b : Block α n) (c : Block α m) : Block α (n + m) := ⟨b.toList ++ c.toList, by simp⟩

@[simp] theorem append_toList (b : Block α n) (c : Block α m) :
    (b.append c).toList = b.toList ++ c.toList := rfl

/-- Concatenation of blocks loses nothing. -/
theorem append_inj {b b' : Block α n} {c c' : Block α m} (h : b.append c = b'.append c') :
    b = b' ∧ c = c' := by
  have hl := congrArg toList h
  simp only [append_toList] at hl
  obtain ⟨hb, hc⟩ := List.append_inj hl (by simp)
  exact ⟨ext hb, ext hc⟩

end Block

end ModbusPp.Foundation

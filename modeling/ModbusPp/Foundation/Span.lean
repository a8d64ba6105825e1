import ModbusPp.Foundation.Block

/-! Views of a buffer with unchecked element access. A view is a base offset and
a length it claims; nothing ties that length to the buffer behind it. An access
that leaves the buffer is a fault, so a computation that returns has stayed
inside. `Views` says which elements a view really covers, and the read rules
below it turn accesses through such a view into list operations. -/

namespace ModbusPp.Foundation

/-- What an unchecked access can run into. -/
inductive Fault
  | outOfRange
  deriving DecidableEq, Repr

/-- A computation with unchecked accesses: its value, or the fault it ran into. -/
abbrev Checked := Except Fault

@[simp] theorem ok_bind {ε α β : Type} (a : α) (f : α → Except ε β) :
    ((Except.ok a : Except ε α) >>= f) = f a := rfl

@[simp] theorem error_bind {ε α β : Type} (e : ε) (f : α → Except ε β) :
    ((Except.error e : Except ε α) >>= f) = Except.error e := rfl

@[simp] theorem pure_eq_ok {ε α : Type} (a : α) : (pure a : Except ε α) = Except.ok a := rfl

/-- A computation that returns went through each of its steps. -/
theorem bind_eq_ok {ε α β : Type} {x : Except ε α} {f : α → Except ε β} {b : β} :
    (x >>= f) = .ok b ↔ ∃ a, x = .ok a ∧ f a = .ok b := by
  cases x <;> simp

/-- A pointer into an allocation and the number of elements it is said to cover. -/
structure Span (α : Type) where
  buf : List α
  off : ℕ
  size : ℕ
  deriving DecidableEq, Repr

namespace Span

variable {α : Type} {s : Span α} {xs : List α}

/-- The view of a whole buffer. -/
def ofList (xs : List α) : Span α := ⟨xs, 0, xs.length⟩

/-- The view of `n` elements from index `i` on; `n` is not checked. -/
def sub (s : Span α) (i n : ℕ) : Span α := ⟨s.buf, s.off + i, n⟩

/-- Element access: faults outside the allocation. -/
def read (s : Span α) (i : ℕ) : Checked α :=
  match s.buf[s.off + i]? with
  | some x => .ok x
  | none => .error .outOfRange

/-- The elements from index `i` up to index `j`: faults on a range that is
reversed or leaves the allocation. -/
def copy (s : Span α) (i j : ℕ) : Checked (List α) :=
  if i ≤ j ∧ s.off + j ≤ s.buf.length then .ok ((s.buf.drop (s.off + i)).take (j - i))
  else .error .outOfRange

/-- The `n` elements from index `i` on, as a block. -/
def copyN (s : Span α) (i n : ℕ) : Checked (Block α n) :=
  if h : s.off + i + n ≤ s.buf.length then .ok (Block.slice s.buf (s.off + i) n h)
  else .error .outOfRange

/-- The view lies inside its allocation. -/
def Inside (s : Span α) : Prop := s.off + s.size ≤ s.buf.length

instance (s : Span α) : Decidable s.Inside := inferInstanceAs (Decidable (_ ≤ _))

/-- The view covers exactly the elements `xs` of its allocation. -/
structure Views (s : Span α) (xs : List α) : Prop where
  size_eq : s.size = xs.length
  covers : ∃ before after, s.buf = before ++ xs ++ after ∧ before.length = s.off

theorem views_ofList (xs : List α) : (ofList xs).Views xs := ⟨rfl, [], [], by simp [ofList], rfl⟩

theorem Views.inside (h : s.Views xs) : s.Inside := by
  obtain ⟨hsize, before, after, hbuf, hoff⟩ := h
  simp only [Inside, hbuf, List.length_append]
  omega

theorem Views.get (h : s.Views xs) {i : ℕ} (hi : i < xs.length) : s.buf[s.off + i]? = xs[i]? := by
  obtain ⟨-, before, after, hbuf, hoff⟩ := h
  rw [hbuf, ← hoff, List.append_assoc, List.getElem?_append_right (by omega),
    Nat.add_sub_cancel_left, List.getElem?_append_left hi]

/-- Reading below the length of a view gives the element there. -/
theorem Views.read (h : s.Views xs) {i : ℕ} {x : α} (hx : xs[i]? = some x) : s.read i = .ok x := by
  have hi : i < xs.length := (List.getElem?_eq_some_iff.mp hx).1
  rw [Span.read, h.get hi, hx]

theorem Views.copy (h : s.Views xs) {i j : ℕ} (hij : i ≤ j) (hj : j ≤ xs.length) :
    s.copy i j = .ok ((xs.drop i).take (j - i)) := by
  obtain ⟨-, before, after, hbuf, hoff⟩ := h
  have hlen : s.off + j ≤ s.buf.length := by simp only [hbuf, List.length_append]; omega
  rw [Span.copy, if_pos ⟨hij, hlen⟩]
  congr 1
  rw [hbuf, ← hoff, List.append_assoc, List.drop_append, List.drop_eq_nil_of_le (by omega),
    List.nil_append, Nat.add_sub_cancel_left, List.drop_append_of_le_length (by omega),
    List.take_append_of_le_length (by simp; omega)]

theorem Views.copyN (h : s.Views xs) {i n : ℕ} (hn : i + n ≤ xs.length) :
    s.copyN i n = .ok (Block.slice xs i n hn) := by
  have hin : s.off + s.size ≤ s.buf.length := h.inside
  have hsize := h.size_eq
  have hc := h.copy (Nat.le_add_right i n) hn
  rw [Span.copy, if_pos ⟨by omega, by omega⟩, Nat.add_sub_cancel_left, Except.ok.injEq] at hc
  rw [Span.copyN, dif_pos (by omega)]
  exact congrArg Except.ok (Block.ext hc)

/-- A part of a view covers the matching part of its elements. -/
theorem Views.sub (h : s.Views xs) {i n : ℕ} (hn : i + n ≤ xs.length) :
    (s.sub i n).Views ((xs.drop i).take n) := by
  obtain ⟨-, before, after, hbuf, hoff⟩ := h
  refine ⟨by simp [Span.sub]; omega, before ++ xs.take i, (xs.drop i).drop n ++ after, ?_, ?_⟩
  · calc s.buf = before ++ (xs.take i ++ xs.drop i) ++ after := by rw [List.take_append_drop, hbuf]
      _ = before ++ (xs.take i ++ ((xs.drop i).take n ++ (xs.drop i).drop n)) ++ after := by
        rw [List.take_append_drop n]
      _ = before ++ xs.take i ++ (xs.drop i).take n ++ ((xs.drop i).drop n ++ after) := by
        simp only [List.append_assoc]
  · simp [Span.sub, hoff]; omega

end Span

end ModbusPp.Foundation

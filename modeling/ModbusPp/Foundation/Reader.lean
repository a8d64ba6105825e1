import ModbusPp.Foundation.Block

/-! Readers that consume a list from the front or fail. `Yields r xs a` is the
exact specification of one: it takes `xs` off the front of any list and returns
`a`. A layout of consecutive fields is read by a chain of readers, and its
specification is the chain of theirs. A `Local` reader looks no further than what
it takes: it gives the same on every list that begins with that, and on a shorter
one it fails. `Prints` is the way back: whatever a reader takes is what a printer
writes for its result. A `Fixed` reader fails on nothing but a short list. -/

namespace ModbusPp.Foundation

abbrev Reader (β : Type) := StateT (List β) Option

namespace Reader

variable {α β γ : Type}

/-- One element. -/
def next : Reader β β := fun xs => match xs with
  | [] => none
  | x :: xs => some (x, xs)

/-- The next `n` elements. -/
def takeN (n : ℕ) : Reader β (Block β n) := fun xs =>
  if h : n ≤ xs.length then some (Block.slice xs 0 n (by omega), xs.drop n) else none

/-- A field that is present only when `b` holds. -/
def whenSet (b : Bool) (r : Reader β α) : Reader β (Option α) :=
  if b then some <$> r else pure none

/-- `n` fields of one kind. -/
def times (r : Reader β α) : ℕ → Reader β (List α)
  | 0 => pure []
  | n + 1 => do
    let a ← r
    let as ← times r n
    pure (a :: as)

/-- `r` takes `xs` off the front of any list and returns `a`. -/
def Yields (r : Reader β α) (xs : List β) (a : α) : Prop :=
  ∀ rest, r.run (xs ++ rest) = some (a, rest)

theorem Yields.pure (a : α) : Yields (pure a : Reader β α) [] a := fun _ => rfl

theorem Yields.bind {r : Reader β α} {f : α → Reader β γ} {xs ys : List β} {a : α} {c : γ}
    (hr : Yields r xs a) (hf : Yields (f a) ys c) : Yields (r >>= f) (xs ++ ys) c := by
  intro rest
  simp only [StateT.run_bind, List.append_assoc, hr (ys ++ rest), Option.bind_eq_bind,
    Option.bind_some, hf rest]

theorem Yields.map {r : Reader β α} (f : α → γ) {xs : List β} {a : α} (hr : Yields r xs a) :
    Yields (f <$> r) xs (f a) := by
  intro rest
  simp only [StateT.run_map, hr rest, Option.map_eq_map, Option.map_some]

theorem yields_next (x : β) : Yields next [x] x := fun _ => rfl

theorem yields_takeN {n : ℕ} (xs : Block β n) : Yields (takeN n) xs.toList xs := by
  obtain ⟨xs, rfl⟩ := xs
  intro rest
  simp [takeN, StateT.run, Block.slice]

theorem Yields.present {r : Reader β α} {xs : List β} {a : α} (hr : Yields r xs a) :
    Yields (whenSet true r) xs (some a) := hr.map some

theorem yields_absent (r : Reader β α) : Yields (whenSet false r) [] none := Yields.pure none

theorem yields_times {r : Reader β α} {print : γ → List β} {value : γ → α} {cs : List γ}
    (hr : ∀ c ∈ cs, Yields r (print c) (value c)) : Yields (times r cs.length)
    (cs.flatMap print) (cs.map value) := by
  induction cs with
  | nil => exact Yields.pure []
  | cons c cs ih =>
    have hrest := ih fun d hd => hr d (List.mem_cons_of_mem c hd)
    have h := (hr c List.mem_cons_self).bind
      (f := fun a => do let as ← times r cs.length; pure (a :: as))
      (hrest.bind (Yields.pure (value c :: cs.map value)))
    rwa [List.append_nil] at h

theorem run_next_cons (x : β) (xs : List β) :
    (next : Reader β β).run (x :: xs) = some (x, xs) := rfl

/-- Reading at position `i` of a list. -/
theorem run_next_drop {xs : List β} {i : ℕ} (h : i < xs.length) :
    (next : Reader β β).run (xs.drop i) = some (xs[i], xs.drop (i + 1)) := by
  rw [List.drop_eq_getElem_cons h, run_next_cons]

theorem run_takeN_of_le {n : ℕ} {xs : List β} (h : n ≤ xs.length) :
    (takeN n).run xs = some (Block.slice xs 0 n (by omega), xs.drop n) := dif_pos h

theorem run_takeN_drop {n i : ℕ} {xs : List β} (h : i + n ≤ xs.length) :
    (takeN n).run (xs.drop i) = some (Block.slice xs i n h, xs.drop (i + n)) := by
  have hrun := run_takeN_of_le (show n ≤ (xs.drop i).length by rw [List.length_drop]; omega)
  rwa [List.drop_drop] at hrun

theorem run_takeN_of_short {n : ℕ} {xs : List β} (h : xs.length < n) : (takeN n).run xs = none :=
  dif_neg (by omega)

/-- What follows the elements `r` takes does not change what it returns. -/
def Local (r : Reader β α) : Prop :=
  ∀ xs a rest, r.run xs = some (a, rest) → ∀ ys, r.run (xs ++ ys) = some (a, rest ++ ys)

theorem Local.pure (a : α) : Local (pure a : Reader β α) := by
  intro xs b rest h ys
  rw [StateT.run_pure, Option.pure_def, Option.some.injEq, Prod.mk.injEq] at h ⊢
  exact ⟨h.1, by rw [h.2]⟩

theorem Local.bind {r : Reader β α} {f : α → Reader β γ} (hr : Local r) (hf : ∀ a, Local (f a)) :
    Local (r >>= f) := by
  intro xs c rest h ys
  rw [StateT.run_bind, Option.bind_eq_bind, Option.bind_eq_some_iff] at h
  obtain ⟨⟨a, xs'⟩, hfirst, hsecond⟩ := h
  rw [StateT.run_bind, Option.bind_eq_bind, hr xs a xs' hfirst ys, Option.bind_some]
  exact hf a xs' c rest hsecond ys

theorem Local.map {r : Reader β α} (f : α → γ) (hr : Local r) : Local (f <$> r) := by
  rw [← bind_pure_comp]
  exact hr.bind fun a => Local.pure (f a)

theorem Local.whenSet {r : Reader β α} (hr : Local r) (b : Bool) : Local (whenSet b r) := by
  cases b with
  | false => exact Local.pure none
  | true => exact hr.map some

theorem local_times {r : Reader β α} (hr : Local r) (n : ℕ) : Local (times r n) := by
  induction n with
  | zero => exact Local.pure []
  | succ n ih => exact hr.bind fun a => ih.bind fun as => Local.pure (a :: as)

theorem local_next : Local (next : Reader β β) := by
  intro xs a rest h ys
  cases xs with
  | nil => contradiction
  | cons x xs =>
    rw [run_next_cons, Option.some.injEq, Prod.mk.injEq] at h
    rw [List.cons_append, run_next_cons, h.1, h.2]

theorem local_takeN (n : ℕ) : Local (takeN n : Reader β (Block β n)) := by
  intro xs a rest h ys
  rcases Nat.lt_or_ge xs.length n with hlen | hlen
  · rw [run_takeN_of_short hlen] at h
    contradiction
  · rw [run_takeN_of_le hlen, Option.some.injEq, Prod.mk.injEq] at h
    rw [run_takeN_of_le (by rw [List.length_append]; omega), ← h.1, ← h.2,
      List.drop_append_of_le_length hlen]
    congr 2
    apply Block.ext
    simp only [Block.slice_toList, List.drop_zero, List.take_append_of_le_length hlen]

/-- A chain that succeeds went through both of its readers. -/
theorem run_bind_some {r : Reader β α} {f : α → Reader β γ} {xs rest : List β} {c : γ} :
    (r >>= f).run xs = some (c, rest) ↔ ∃ a ys, r.run xs = some (a, ys) ∧
    (f a).run ys = some (c, rest) := by
  rw [StateT.run_bind, Option.bind_eq_bind, Option.bind_eq_some_iff, Prod.exists]

/-- What `r` takes is what `print` writes for what it returns. -/
def Prints (r : Reader β α) (print : α → List β) : Prop :=
  ∀ xs a rest, r.run xs = some (a, rest) → xs = print a ++ rest

theorem prints_next : Prints (next : Reader β β) fun x => [x] := by
  intro xs a rest h
  cases xs with
  | nil => contradiction
  | cons x xs =>
    rw [run_next_cons, Option.some.injEq, Prod.mk.injEq] at h
    rw [h.1, h.2, List.singleton_append]

theorem prints_takeN (n : ℕ) : Prints (takeN n : Reader β (Block β n)) Block.toList := by
  intro xs a rest h
  rcases Nat.lt_or_ge xs.length n with hlen | hlen
  · rw [run_takeN_of_short hlen] at h
    contradiction
  · rw [run_takeN_of_le hlen, Option.some.injEq, Prod.mk.injEq] at h
    rw [← h.1, ← h.2, Block.slice_toList, List.drop_zero, List.take_append_drop]

theorem Prints.map {r : Reader β α} {print : α → List β} {print' : γ → List β}
    {f : α → γ} (hr : Prints r print) (hprint : ∀ a, print' (f a) = print a) :
    Prints (f <$> r) print' := by
  intro xs c rest h
  rw [StateT.run_map, Option.map_eq_map, Option.map_eq_some_iff] at h
  obtain ⟨⟨a, ys⟩, hrun, h⟩ := h
  cases h
  rw [hprint]
  exact hr xs a ys hrun

theorem Prints.whenSet {r : Reader β α} {print : α → List β} (hr : Prints r print) (b : Bool) :
    Prints (whenSet b r) fun m => m.elim [] print := by
  cases b with
  | false =>
    intro xs m rest h
    cases h
    rfl
  | true => exact hr.map fun _ => rfl

/-- A field is there exactly if it is announced. -/
theorem isSome_of_whenSet {r : Reader β α} {b : Bool} {xs rest : List β} {m : Option α}
    (h : (whenSet b r).run xs = some (m, rest)) : m.isSome = b := by
  cases b with
  | false =>
    cases h
    rfl
  | true =>
    change (some <$> r).run xs = some (m, rest) at h
    rw [StateT.run_map, Option.map_eq_map, Option.map_eq_some_iff] at h
    obtain ⟨taken, -, h⟩ := h
    cases h
    rfl

/-- A list of fields comes with as many as were asked for. -/
theorem prints_times {r : Reader β α} {print : α → List β} (hr : Prints r print)
    (n : ℕ) {xs rest : List β} {as : List α} (h : (times r n).run xs = some (as, rest)) :
    as.length = n ∧ xs = as.flatMap print ++ rest := by
  induction n generalizing xs as with
  | zero =>
    cases h
    exact ⟨rfl, rfl⟩
  | succ n ih =>
    obtain ⟨a, ys, hfirst, h⟩ := run_bind_some.mp h
    obtain ⟨as', zs, hothers, h⟩ := run_bind_some.mp h
    cases h
    obtain ⟨hlen, hys⟩ := ih hothers
    rw [hr xs a ys hfirst, hys]
    exact ⟨congrArg (· + 1) hlen, by rw [List.flatMap_cons, List.append_assoc]⟩

/-- `r` takes `k` elements, and fails only where there are fewer. -/
def Fixed (r : Reader β α) (k : ℕ) : Prop :=
  ∀ xs, (k ≤ xs.length → ∃ a, r.run xs = some (a, xs.drop k)) ∧ (xs.length < k → r.run xs = none)

theorem Fixed.pure (a : α) : Fixed (pure a : Reader β α) 0 := fun _ =>
  ⟨fun _ => ⟨a, rfl⟩, fun h => absurd h (Nat.not_lt_zero _)⟩

theorem fixed_next : Fixed (next : Reader β β) 1 := by
  rintro (_ | ⟨x, xs⟩)
  · exact ⟨fun h => absurd h (by simp), fun _ => rfl⟩
  · exact ⟨fun _ => ⟨x, rfl⟩, fun h => absurd h (by simp)⟩

theorem Fixed.bind {r : Reader β α} {f : α → Reader β γ} {k l : ℕ}
    (hr : Fixed r k) (hf : ∀ a, Fixed (f a) l) :
    Fixed (r >>= f) (k + l) := by
  intro xs
  rcases Nat.lt_or_ge xs.length k with hlen | hlen
  · refine ⟨fun h => absurd h (by omega), fun _ => ?_⟩
    rw [StateT.run_bind, (hr xs).2 hlen]
    rfl
  · obtain ⟨a, hrun⟩ := (hr xs).1 hlen
    obtain ⟨hlong, hshort⟩ := hf a (xs.drop k)
    rw [List.length_drop] at hlong hshort
    rw [StateT.run_bind, hrun, Option.bind_eq_bind, Option.bind_some, ← List.drop_drop]
    exact ⟨fun h => hlong (by omega), fun h => hshort (by omega)⟩

theorem fixed_times {r : Reader β α} {k : ℕ} (hr : Fixed r k) (n : ℕ) :
    Fixed (times r n) (k * n) := by
  induction n with
  | zero => exact Fixed.pure []
  | succ n ih =>
    have h := hr.bind (f := fun a => do let as ← times r n; pure (a :: as)) fun a =>
      ih.bind fun as => Fixed.pure (a :: as)
    rwa [Nat.add_zero, Nat.add_comm k] at h

theorem Fixed.run_isSome {r : Reader β α} {k : ℕ} (hr : Fixed r k) (xs : List β) :
    (r.run xs).isSome ↔ k ≤ xs.length := by
  rcases Nat.lt_or_ge xs.length k with hlen | hlen
  · simp [(hr xs).2 hlen, hlen]
  · obtain ⟨a, hrun⟩ := (hr xs).1 hlen
    simp [hrun, hlen]

/-- A reader that takes all of a list returns nothing on a shorter part of it. -/
theorem Local.take_of_all {r : Reader β α} (hr : Local r) {xs rest : List β} {a b : α} {n : ℕ}
    (hall : r.run xs = some (a, [])) (hpart : r.run (xs.take n) = some (b, rest)) :
    xs.length ≤ n := by
  have h := hr (xs.take n) b rest hpart (xs.drop n)
  rw [List.take_append_drop, hall, Option.some.injEq, Prod.mk.injEq, eq_comm (a := [])] at h
  exact List.drop_eq_nil_iff.mp (List.append_eq_nil_iff.mp h.2).2

end Reader

end ModbusPp.Foundation

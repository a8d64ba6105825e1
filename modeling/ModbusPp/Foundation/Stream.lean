import Mathlib.Tactic

/-! Loops over partial reads and writes. A call may move as little as one element,
so `gather` reads until its buffer is full and `scatter` writes until nothing is
left. Against a stream that `Supplies` or `Accepts` at least one element in each
call, the loops take and append exactly what they were asked to, however the
calls cut the stream. -/

namespace ModbusPp.Foundation

variable {β σ : Type}

/-- Read until the buffer holds `size` elements. A round that does not give up adds
one at least, so as many rounds as elements are enough. -/
def gather (read : ℕ → σ → List β × σ) (size : ℕ) : ℕ → List β → σ → Option (List β) × σ
  | 0, buffer, s => (some buffer, s)
  | rounds + 1, buffer, s =>
    if buffer.length < size then
      match read (size - buffer.length) s with
      | ([], s) => (none, s)
      | (x :: xs, s) => gather read size rounds (buffer ++ x :: xs) s
    else (some buffer, s)

/-- Write until nothing is left. -/
def scatter (write : List β → σ → ℕ × σ) : ℕ → List β → σ → Bool × σ
  | 0, _, s => (true, s)
  | _, [], s => (true, s)
  | rounds + 1, rest, s =>
    match write rest s with
    | (0, s) => (false, s)
    | (n + 1, s) => scatter write rounds (rest.drop (n + 1)) s

/-- While something is left of the stream, a read returns a non-empty part of its
front, of no more elements than asked for. `At q s` says that `q` is left in `s`. -/
def Supplies (read : ℕ → σ → List β × σ) (At : List β → σ → Prop) : Prop :=
  ∀ n q s, 0 < n → q ≠ [] → At q s →
    ∃ xs rest s', xs ≠ [] ∧ xs.length ≤ n ∧ q = xs ++ rest ∧ read n s = (xs, s') ∧ At rest s'

/-- A write accepts a non-empty part of the front of what it is offered. `At q s` says
that `q` has been written in `s`. -/
def Accepts (write : List β → σ → ℕ × σ) (At : List β → σ → Prop) : Prop :=
  ∀ xs q s, xs ≠ [] → At q s → ∃ k s', 0 < k ∧ k ≤ xs.length ∧ write xs s = (k, s') ∧
    At (q ++ xs.take k) s'

/-- The buffer is filled with what comes next, however the reads cut the stream. -/
theorem Supplies.gather_eq {read : ℕ → σ → List β × σ} {At : List β → σ → Prop}
    (h : Supplies read At) (size rounds : ℕ) (buffer : List β) {more q : List β}
    {s : σ} (hsize : size = buffer.length + more.length) (hrounds : more.length ≤ rounds)
    (hat : At (more ++ q) s) :
    ∃ s', gather read size rounds buffer s = (some (buffer ++ more), s') ∧ At q s' := by
  induction rounds generalizing buffer more s with
  | zero =>
    have hnil : more = [] := List.length_eq_zero_iff.mp (by omega)
    subst hnil
    exact ⟨s, by rw [gather, List.append_nil], hat⟩
  | succ rounds ih =>
    rcases eq_or_ne more [] with rfl | hmore
    · exact ⟨s, by rw [gather, if_neg (by simp [hsize]), List.append_nil], hat⟩
    · have hpos := List.length_pos_of_ne_nil hmore
      obtain ⟨xs, rest, s₁, hxs, hle, hq, hread, hat₁⟩ :=
        h (size - buffer.length) (more ++ q) s (by omega)
        (List.append_ne_nil_of_left_ne_nil hmore q) hat
      -- what the read returned is the front of what is still missing
      have hbegins : xs <+: more :=
        List.prefix_of_prefix_length_le (hq ▸ List.prefix_append xs rest)
        (List.prefix_append more q) (by omega)
      obtain ⟨more, rfl⟩ := hbegins
      rw [List.append_assoc, List.append_cancel_left_eq] at hq
      subst hq
      rw [List.length_append] at hsize hrounds
      have hxpos := List.length_pos_of_ne_nil hxs
      obtain ⟨s', hgather, hat'⟩ :=
        ih (buffer ++ xs) (by rw [List.length_append]; omega) (by omega) hat₁
      refine ⟨s', ?_, hat'⟩
      rw [gather, if_pos (by omega), hread]
      cases xs with
      | nil => exact absurd rfl hxs
      | cons x xs => rwa [List.append_assoc] at hgather

/-- A buffer that was filled holds what was in it and exactly as much as it can, if
no read returns more than it was asked for. -/
theorem length_gather {read : ℕ → σ → List β × σ} (hread : ∀ n s, (read n s).1.length ≤ n)
    {size : ℕ} (rounds : ℕ) {buffer xs : List β} {s s' : σ} (hbuffer : buffer.length ≤ size)
    (hrounds : size ≤ buffer.length + rounds)
    (h : gather read size rounds buffer s = (some xs, s')) : buffer <+: xs ∧ xs.length = size := by
  induction rounds generalizing buffer s with
  | zero =>
    rw [gather, Prod.mk.injEq, Option.some.injEq] at h
    exact ⟨h.1 ▸ List.prefix_refl buffer, h.1 ▸ by omega⟩
  | succ rounds ih =>
    rw [gather] at h
    by_cases hlt : buffer.length < size
    · rw [if_pos hlt] at h
      have hle := hread (size - buffer.length) s
      rcases hx : read (size - buffer.length) s with ⟨_ | ⟨y, ys⟩, s₁⟩
      · rw [hx] at h
        cases h
      · rw [hx] at h hle
        rw [List.length_cons] at hle
        obtain ⟨hbegins, hlen⟩ := ih (by rw [List.length_append, List.length_cons]; omega)
          (by rw [List.length_append, List.length_cons]; omega) h
        exact ⟨(List.prefix_append buffer (y :: ys)).trans hbegins, hlen⟩
    · rw [if_neg hlt, Prod.mk.injEq, Option.some.injEq] at h
      exact ⟨h.1 ▸ List.prefix_refl buffer, h.1 ▸ by omega⟩

/-- What every read keeps, the loop keeps. -/
theorem gather_keeps {read : ℕ → σ → List β × σ} {inv : σ → Prop}
    (hread : ∀ n s, inv s → inv (read n s).2) {size : ℕ} (rounds : ℕ)
    {buffer : List β} {xs : Option (List β)} {s s' : σ} (hinv : inv s)
    (h : gather read size rounds buffer s = (xs, s')) : inv s' := by
  induction rounds generalizing buffer s with
  | zero =>
    rw [gather] at h
    cases h
    exact hinv
  | succ rounds ih =>
    have hone := hread (size - buffer.length) s hinv
    rw [gather] at h
    split_ifs at h
    · rcases hx : read (size - buffer.length) s with ⟨_ | ⟨y, ys⟩, s₁⟩
      · rw [hx] at h hone
        cases h
        exact hone
      · rw [hx] at h hone
        exact ih hone h
    · cases h
      exact hinv

/-- A filled buffer, followed by what is left of the stream, is what was in the buffer and
in the stream. -/
theorem gather_conserves {read : ℕ → σ → List β × σ} {stream : σ → List β}
    (hread : ∀ n s, (read n s).1 ++ stream (read n s).2 = stream s) {size : ℕ}
    (rounds : ℕ) {buffer xs : List β} {s s' : σ}
    (h : gather read size rounds buffer s = (some xs, s')) :
    xs ++ stream s' = buffer ++ stream s := by
  induction rounds generalizing buffer s with
  | zero =>
    rw [gather] at h
    cases h
    rfl
  | succ rounds ih =>
    rw [gather] at h
    split_ifs at h
    · have hone := hread (size - buffer.length) s
      rcases hx : read (size - buffer.length) s with ⟨_ | ⟨y, ys⟩, s₁⟩
      · rw [hx] at h
        cases h
      · rw [hx] at h hone
        rw [ih h, List.append_assoc, hone]
    · cases h
      rfl

/-- Everything offered is appended to the stream, however the writes cut it. -/
theorem Accepts.scatter_eq {write : List β → σ → ℕ × σ} {At : List β → σ → Prop}
    (h : Accepts write At) (rounds : ℕ) {xs q : List β} {s : σ}
    (hrounds : xs.length ≤ rounds) (hat : At q s) :
    ∃ s', scatter write rounds xs s = (true, s') ∧ At (q ++ xs) s' := by
  induction rounds generalizing xs q s with
  | zero =>
    have hnil : xs = [] := List.length_eq_zero_iff.mp (by omega)
    subst hnil
    exact ⟨s, rfl, by simpa using hat⟩
  | succ rounds ih =>
    cases xs with
    | nil => exact ⟨s, rfl, by simpa using hat⟩
    | cons x xs =>
      obtain ⟨k, s₁, hk, hkx, hwrite, hat₁⟩ := h (x :: xs) q s (List.cons_ne_nil x xs) hat
      obtain ⟨k, rfl⟩ := Nat.exists_eq_succ_of_ne_zero hk.ne'
      have hle : ((x :: xs).drop (k + 1)).length ≤ rounds := by
        rw [List.length_drop]
        omega
      obtain ⟨s', hscatter, hat'⟩ := ih hle hat₁
      refine ⟨s', ?_, ?_⟩
      · rw [scatter, hwrite]
        · exact hscatter
        · exact List.cons_ne_nil x xs
      · rwa [List.append_assoc, List.take_append_drop] at hat'

end ModbusPp.Foundation

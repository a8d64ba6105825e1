import ModbusPp.Foundation.Run
import ModbusPp.Foundation.Span

/-! Descriptors that are opened, used and closed by a component that remembers one at a
time. A call on a descriptor that is not open is a fault. If each step of the component
handles its descriptor in one of a few ways, no run faults, and the descriptors that are
still open at the end are the one it remembers and those it has abandoned. -/

namespace ModbusPp.Foundation

variable {δ ι σ : Type} [DecidableEq δ]

/-- A system call, with the descriptor that it returned or is on. -/
inductive DescriptorCall (δ : Type)
  | opened (d : δ)
  | used (d : δ)
  | closed (d : δ)
  deriving DecidableEq

/-- The open descriptors after a call, or the call that is on none of them. -/
def DescriptorCall.perform (call : DescriptorCall δ) (held : List δ) :
    Except (DescriptorCall δ) (List δ) :=
  match call with
  | opened d => .ok (d :: held)
  | used d => if d ∈ held then .ok held else .error call
  | closed d => if d ∈ held then .ok (held.erase d) else .error call

def performCalls : List (DescriptorCall δ) → List δ → Except (DescriptorCall δ) (List δ)
  | [], held => .ok held
  | call :: calls, held => do performCalls calls (← call.perform held)

/-- So many calls on a descriptor. -/
def uses (d : δ) (n : ℕ) : List (DescriptorCall δ) := List.replicate n (.used d)

/-- The ways of a step with the descriptor it remembers before and after: it leaves it
alone, works on it, closes it, or remembers another or none without having closed it. -/
inductive Handling : Option δ → List (DescriptorCall δ) → Option δ → Prop
  | idle (c : Option δ) : Handling c [] c
  | works (d : δ) (n : ℕ) : Handling (some d) (uses d n) (some d)
  | closes (d : δ) : Handling (some d) [.closed d] none
  | forgets (c : Option δ) : Handling c [] none
  | opens (c : Option δ) (d : δ) (n : ℕ) : Handling c (.opened d :: uses d n) (some d)
  | givesUp (c : Option δ) (d : δ) (n : ℕ) :
      Handling c (.opened d :: (uses d n ++ [.closed d])) none

/-- The descriptor remembered before is neither closed nor remembered after. -/
def Abandons (c : Option δ) (calls : List (DescriptorCall δ)) (c' : Option δ) : Prop :=
  ∃ d, c = some d ∧ c' ≠ some d ∧ .closed d ∉ calls

instance (c : Option δ) (calls : List (DescriptorCall δ)) (c' : Option δ) :
    Decidable (Abandons c calls c') :=
  match c with
  | none => .isFalse (by rintro ⟨d, h, -⟩; cases h)
  | some d => decidable_of_iff (c' ≠ some d ∧ .closed d ∉ calls) (by simp [Abandons])

/-- The open descriptors that are not remembered. -/
def strays : Option δ → List δ → List δ
  | none, held => held
  | some d, held => held.erase d

/-- The remembered descriptor is open, and none is open twice. -/
structure Kept (c : Option δ) (held : List δ) : Prop where
  nodup : held.Nodup
  open_ : ∀ d, c = some d → d ∈ held

section calls

variable {c c' : Option δ} {calls : List (DescriptorCall δ)} {held : List δ} {d : δ}

theorem performCalls_append (calls calls' : List (DescriptorCall δ)) (held : List δ) :
    performCalls (calls ++ calls') held = performCalls calls held >>= performCalls calls' := by
  induction calls generalizing held with
  | nil => rfl
  | cons call calls ih =>
    rw [List.cons_append, performCalls, performCalls]
    cases call.perform held with
    | error e => rfl
    | ok held' => exact ih held'

theorem performCalls_uses (h : d ∈ held) (n : ℕ) : performCalls (uses d n) held = .ok held := by
  induction n with
  | zero => rfl
  | succ n ih =>
    rw [uses, List.replicate_succ, performCalls, DescriptorCall.perform, if_pos h]
    exact ih

theorem performCalls_closed (h : d ∈ held) :
    performCalls [.closed d] held = .ok (held.erase d) := by
  rw [performCalls, DescriptorCall.perform, if_pos h]
  rfl

theorem performCalls_opens (d : δ) (n : ℕ) (held : List δ) :
    performCalls (.opened d :: uses d n) held = .ok (d :: held) :=
  performCalls_uses List.mem_cons_self n

theorem performCalls_givesUp (d : δ) (n : ℕ) (held : List δ) :
    performCalls (.opened d :: (uses d n ++ [.closed d])) held = .ok held := by
  rw [← List.cons_append, performCalls_append, performCalls_opens]
  change performCalls [.closed d] (d :: held) = _
  rw [performCalls_closed List.mem_cons_self, List.erase_cons_head]

omit [DecidableEq δ] in
theorem not_closed_uses (d e : δ) (n : ℕ) : .closed e ∉ uses d n :=
  fun h => nomatch List.eq_of_mem_replicate h

omit [DecidableEq δ] in
/-- Where no descriptor is remembered, none is abandoned. -/
theorem not_abandons_none (calls : List (DescriptorCall δ)) (c' : Option δ) :
    ¬Abandons none calls c' := by
  rintro ⟨d, h, -⟩
  cases h

/-- What was remembered is neither closed nor remembered any more. -/
def Loses (c : Option δ) (calls : List (DescriptorCall δ)) (c' : Option δ) : Prop :=
  ∀ d, c = some d → c' ≠ some d ∧ .closed d ∉ calls

omit [DecidableEq δ] in
theorem Loses.abandons_iff (h : Loses c calls c') : Abandons c calls c' ↔ c.isSome = true := by
  cases c with
  | none => exact iff_of_false (not_abandons_none calls c') nofun
  | some d => exact iff_of_true ⟨d, rfl, h d rfl⟩ rfl

omit [DecidableEq δ] in
theorem loses_forgets (c : Option δ) : Loses c [] none := fun _ _ => ⟨nofun, nofun⟩

omit [DecidableEq δ] in
theorem loses_opens (hkept : Kept c held) (hnew : d ∉ held) (n : ℕ) :
    Loses c (.opened d :: uses d n) (some d) := by
  intro e he
  constructor
  · intro heq
    cases heq
    exact hnew (hkept.open_ d he)
  · intro hmem
    rcases List.mem_cons.mp hmem with heq | hmem
    · cases heq
    · exact not_closed_uses d e n hmem

omit [DecidableEq δ] in
theorem loses_givesUp (hkept : Kept c held) (hnew : d ∉ held) (n : ℕ) :
    Loses c (.opened d :: (uses d n ++ [.closed d])) none := by
  refine fun e he => ⟨nofun, fun hmem => ?_⟩
  rcases List.mem_cons.mp hmem with heq | hmem
  · cases heq
  rcases List.mem_append.mp hmem with hmem | hmem
  · exact not_closed_uses d e n hmem
  · cases List.mem_singleton.mp hmem
    exact hnew (hkept.open_ d he)

omit [DecidableEq δ] in
theorem not_abandons_same (c : Option δ) (calls : List (DescriptorCall δ)) : ¬Abandons c calls c :=
  fun ⟨_, hc, hother, _⟩ => hother hc

omit [DecidableEq δ] in
theorem not_abandons_closed (d : δ) (c' : Option δ) : ¬Abandons (some d) [.closed d] c' := by
  rintro ⟨e, hc, -, hopen⟩
  cases hc
  exact hopen List.mem_cons_self

theorem Loses.length_strays (h : Loses c calls c') (hkept : Kept c held) :
    held.length = (strays c held).length + if Abandons c calls c' then 1 else 0 := by
  cases c with
  | none => rw [if_neg (not_abandons_none calls c'), strays, Nat.add_zero]
  | some d => rw [if_pos (h.abandons_iff.mpr rfl), strays,
      List.length_erase_add_one (hkept.open_ d rfl)]

/-- A step that handles its descriptor makes no call on one that is not open, and leaves one
stray more if it abandons its own. -/
theorem Handling.perform (h : Handling c calls c') (hkept : Kept c held)
    (hfresh : ∀ d, .opened d ∈ calls → d ∉ held) :
    ∃ held', performCalls calls held = .ok held' ∧ Kept c' held' ∧
      (strays c' held').length = (strays c held).length + if Abandons c calls c' then 1 else 0 := by
  cases h with
  | idle => exact ⟨held, rfl, hkept, by rw [if_neg (not_abandons_same c _), Nat.add_zero]⟩
  | works d n =>
    exact ⟨held, performCalls_uses (hkept.open_ d rfl) n, hkept,
      by rw [if_neg (not_abandons_same _ _), Nat.add_zero]⟩
  | closes d =>
    refine ⟨held.erase d, performCalls_closed (hkept.open_ d rfl), ⟨hkept.nodup.erase d, nofun⟩, ?_⟩
    rw [if_neg (not_abandons_closed d none), Nat.add_zero]
    rfl
  | forgets => exact ⟨held, rfl, ⟨hkept.nodup, nofun⟩, (loses_forgets c).length_strays hkept⟩
  | opens _ d n =>
    have hnew := hfresh d List.mem_cons_self
    refine ⟨d ::
      held, performCalls_opens d n held, ⟨List.nodup_cons.mpr ⟨hnew, hkept.nodup⟩, ?_⟩, ?_⟩
    · intro e he
      cases he
      exact List.mem_cons_self
    · rw [strays, List.erase_cons_head]
      exact (loses_opens hkept hnew n).length_strays hkept
  | givesUp _ d n =>
    have hnew := hfresh d List.mem_cons_self
    exact ⟨held, performCalls_givesUp d n held, ⟨hkept.nodup, nofun⟩,
      (loses_givesUp hkept hnew n).length_strays hkept⟩

end calls

/-! ### Runs -/

section runs

variable (step : ι → σ → List (DescriptorCall δ) × σ) (marked : ι → σ → Bool)

/-- A step on the open descriptors. It tells whether it is a marked one. -/
def descriptorStep (i : ι) (s : σ × List δ) : Except (DescriptorCall δ) (Bool × (σ × List δ)) := do
  let (calls, after) := step i s.1
  let held ← performCalls calls s.2
  return (marked i s.1, (after, held))

/-- What the system opens for a step was not open. -/
def OpensFresh (i : ι) (s : σ × List δ) : Prop := ∀ d, .opened d ∈ (step i s.1).1 → d ∉ s.2

variable {step marked}

/-- A run of steps that handle their descriptor makes no call on one that is not open, and
its end has a stray more for each step that abandons one. -/
theorem run_descriptors (inv : σ → Prop) (current : σ → Option δ)
    (hstep : ∀ i s, inv s → inv (step i s).2 ∧
      Handling (current s) (step i s).1 (current (step i s).2))
    (hmarked : ∀ i s held, inv s → Kept (current s) held → OpensFresh step i (s, held) →
      (marked i s = true ↔ Abandons (current s) (step i s).1 (current (step i s).2)))
    (is : List ι) {s : σ} {held : List δ} (hinv : inv s) (hkept : Kept (current s) held)
    (hfresh : Guarded (descriptorStep step marked) (OpensFresh step) is (s, held)) :
    ∃ outs s' held', runAll (descriptorStep step marked) is (s, held) = .ok (outs, (s', held')) ∧
      inv s' ∧ Kept (current s') held' ∧
      (strays (current s') held').length = (strays (current s) held).length + outs.count true := by
  induction is generalizing s held with
  | nil => exact ⟨[], s, held, rfl, hinv, hkept, rfl⟩
  | cons i is ih =>
    obtain ⟨hnow, hlater⟩ := hfresh
    obtain ⟨hinv₁, hhandling⟩ := hstep i s hinv
    obtain ⟨held₁, hcalls, hkept₁, hstrays₁⟩ := hhandling.perform hkept hnow
    have hfirst :
        descriptorStep step marked i (s, held) = .ok (marked i s, ((step i s).2, held₁)) := by
      simp only [descriptorStep, hcalls]
      rfl
    obtain ⟨outs, s', held', hrun, hinv', hkept', hstrays'⟩ := ih hinv₁ hkept₁ (hlater _ _ hfirst)
    refine ⟨_, s', held', runAll_cons.mpr ⟨_, _, _, hfirst, hrun, rfl⟩, hinv', hkept', ?_⟩
    have hmark := hmarked i s held hinv hkept hnow
    rw [hstrays', hstrays₁, List.count_cons]
    by_cases habandons : Abandons (current s) (step i s).1 (current (step i s).2)
    · rw [if_pos habandons, if_pos (beq_iff_eq.mpr (hmark.mpr habandons))]
      omega
    · rw [if_neg habandons, if_neg (mt (fun h => hmark.mp (beq_iff_eq.mp h)) habandons)]
      omega

/-- Where no step is marked, no output is. -/
theorem count_of_unmarked (hmarked : ∀ i s, marked i s = false) {is : List ι}
    {s s' : σ × List δ} {outs : List Bool}
    (hrun : runAll (descriptorStep step marked) is s = .ok (outs, s')) : outs.count true = 0 := by
  have hfalse : ∀ o ∈ outs, o = false := by
    refine (runAll_keeps (fun _ => True) (· = false) (fun i s o s' _ h => ⟨trivial, ?_⟩)
      is trivial hrun).2
    rw [descriptorStep] at h
    obtain ⟨held, -, heq⟩ := bind_eq_ok.mp h
    cases heq
    exact hmarked i s.1
  exact List.count_eq_zero.mpr fun htrue => nomatch hfalse true htrue

end runs

end ModbusPp.Foundation

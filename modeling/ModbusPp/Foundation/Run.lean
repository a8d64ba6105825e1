import Mathlib.Data.List.Forall2

/-! Runs of a fallible step function over a list of commands. A run of guarded
steps keeps whatever invariant its steps keep under the guard, and each of its
outputs has whatever property the step gives it. Where the steps may fail, the
same holds of the runs that return. -/

namespace ModbusPp.Foundation

variable {ε ι σ ω : Type}

/-- Perform the commands in order and collect their outputs. -/
def runAll (step : ι → σ → Except ε (ω × σ)) : List ι → σ → Except ε (List ω × σ)
  | [], s => .ok ([], s)
  | i :: is, s => do
    let (o, s) ← step i s
    let (os, s) ← runAll step is s
    return (o :: os, s)

theorem runAll_cons {step : ι → σ → Except ε (ω × σ)} {i : ι} {is : List ι}
    {s s' : σ} {os : List ω} :
    runAll step (i :: is) s = .ok (os, s') ↔
      ∃ o s₁ os', step i s = .ok (o, s₁) ∧ runAll step is s₁ = .ok (os', s') ∧ os = o :: os' := by
  rw [runAll]
  cases hfirst : step i s with
  | error e => exact ⟨nofun, fun ⟨_, _, _, h, _⟩ => nomatch h⟩
  | ok first =>
    change (runAll step is first.2 >>= fun r => pure (first.1 :: r.1, r.2)) = _ ↔ _
    constructor
    · intro h
      cases hothers : runAll step is first.2 with
      | error e =>
        rw [hothers] at h
        contradiction
      | ok others =>
        rw [hothers] at h
        cases h
        exact ⟨first.1, first.2, others.1, rfl, hothers, rfl⟩
    · rintro ⟨o, s₁, os', ⟨⟩, hothers, rfl⟩
      rw [hothers]
      rfl

/-- Each output of a run is that of its own command, in a state that the steps
before it have kept the invariant in. -/
theorem runAll_forall₂ {step : ι → σ → Except ε (ω × σ)} (inv : σ → Prop)
    (hkeep : ∀ i s o s', inv s → step i s = .ok (o, s') → inv s') (is : List ι)
    {s s' : σ} {os : List ω} (hinv : inv s) (hrun : runAll step is s = .ok (os, s')) :
    inv s' ∧ List.Forall₂ (fun i o => ∃ s₁ s₂, inv s₁ ∧ step i s₁ = .ok (o, s₂)) is os := by
  induction is generalizing s os with
  | nil =>
    cases hrun
    exact ⟨hinv, .nil⟩
  | cons i is ih =>
    obtain ⟨o, s₁, os', hfirst, hothers, rfl⟩ := runAll_cons.mp hrun
    obtain ⟨hinv', hrest⟩ := ih (hkeep i s o s₁ hinv hfirst) hothers
    exact ⟨hinv', .cons ⟨s, s₁, hinv, hfirst⟩ hrest⟩

/-- A run over commands that come from others. -/
theorem runAll_map {κ : Type} (step : ι → σ → Except ε (ω × σ)) (f : κ → ι) (ks : List κ) (s : σ) :
    runAll step (ks.map f) s = runAll (fun k => step (f k)) ks s := by
  induction ks generalizing s with
  | nil => rfl
  | cons k ks ih => simp only [List.map_cons, runAll, ih]

/-- Two runs, one after the other. -/
theorem runAll_append {step : ι → σ → Except ε (ω × σ)} {is js : List ι}
    {s s₁ s' : σ} {os ps : List ω} (hfirst : runAll step is s = .ok (os, s₁))
    (hsecond : runAll step js s₁ = .ok (ps, s')) :
    runAll step (is ++ js) s = .ok (os ++ ps, s') := by
  induction is generalizing s os with
  | nil =>
    cases hfirst
    exact hsecond
  | cons i is ih =>
    obtain ⟨o, s₂, os', hstep, hothers, rfl⟩ := runAll_cons.mp hfirst
    exact runAll_cons.mpr ⟨o, s₂, os' ++ ps, hstep, ih hothers, rfl⟩

/-- A run taken apart where its outputs are. -/
theorem runAll_split {step : ι → σ → Except ε (ω × σ)} {is : List ι} {s s' : σ} {os ps : List ω}
    (hrun : runAll step is s = .ok (os ++ ps, s')) :
    ∃ js ks s₁, is = js ++ ks ∧ runAll step js s = .ok (os, s₁) ∧
      runAll step ks s₁ = .ok (ps, s') := by
  induction os generalizing is s with
  | nil => exact ⟨[], is, s, rfl, rfl, hrun⟩
  | cons o os ih =>
    cases is with
    | nil => cases hrun
    | cons i is =>
      obtain ⟨o', s₁, os', hfirst, hothers, heq⟩ := runAll_cons.mp hrun
      cases heq
      obtain ⟨js, ks, s₂, rfl, hjs, hks⟩ := ih hothers
      exact ⟨i :: js, ks, s₂, rfl, runAll_cons.mpr ⟨o, s₁, os, hfirst, hjs, rfl⟩, hks⟩

/-- Every step of the run is taken in a state in which the guard admits it. -/
def Guarded (step : ι → σ → Except ε (ω × σ)) (guard : ι → σ → Prop) : List ι → σ → Prop
  | [], _ => True
  | i :: is, s => guard i s ∧ ∀ o s', step i s = .ok (o, s') → Guarded step guard is s'

/-- The step that is taken is the only one to go on from. -/
theorem Guarded.cons {step : ι → σ → Except ε (ω × σ)} {guard : ι → σ → Prop}
    {i : ι} {is : List ι} {s s₁ : σ} {o : ω} (hfirst_ok : guard i s)
    (hfirst : step i s = .ok (o, s₁)) (hrest : Guarded step guard is s₁) :
    Guarded step guard (i :: is) s := by
  refine ⟨hfirst_ok, fun o' s' h => ?_⟩
  rw [hfirst] at h
  cases h
  exact hrest

/-- A guarded run, taken apart where its first part returns. -/
theorem Guarded.split {step : ι → σ → Except ε (ω × σ)} {guard : ι → σ → Prop}
    {is js : List ι} {s s' : σ} {os : List ω} (h : Guarded step guard (is ++ js) s)
    (hrun : runAll step is s = .ok (os, s')) :
    Guarded step guard is s ∧ Guarded step guard js s' := by
  induction is generalizing s os with
  | nil =>
    cases hrun
    exact ⟨trivial, h⟩
  | cons i is ih =>
    obtain ⟨o, s₁, os', hfirst, hothers, rfl⟩ := runAll_cons.mp hrun
    obtain ⟨hfirst_ok, hrest⟩ := h
    obtain ⟨his, hjs⟩ := ih (hrest o s₁ hfirst) hothers
    exact ⟨.cons hfirst_ok hfirst his, hjs⟩

/-- A guard may be replaced by one that follows from it and an invariant. -/
theorem Guarded.imp {step : ι → σ → Except ε (ω × σ)} {guard guard' : ι → σ → Prop} (inv : σ → Prop)
    (himp : ∀ i s, inv s → guard i s → guard' i s)
    (hkeep : ∀ i s o s', inv s → guard i s → step i s = .ok (o, s') → inv s')
    (is : List ι) {s : σ} (hinv : inv s) (h : Guarded step guard is s) :
    Guarded step guard' is s := by
  induction is generalizing s with
  | nil => trivial
  | cons i is ih =>
    obtain ⟨hfirst_ok, hrest⟩ := h
    exact ⟨himp i s hinv hfirst_ok,
      fun o s' hfirst => ih (hkeep i s o s' hinv hfirst_ok hfirst) (hrest o s' hfirst)⟩

theorem runAll_of_guarded {step : ι → σ → Except ε (ω × σ)} {guard : ι → σ → Prop}
    (inv : σ → Prop) (post : ω → Prop)
    (hstep : ∀ i s, inv s → guard i s → ∃ o s', step i s = .ok (o, s') ∧ inv s' ∧ post o)
    (is : List ι) {s : σ} (hinv : inv s) (hguard : Guarded step guard is s) :
    ∃ os s', runAll step is s = .ok (os, s') ∧ inv s' ∧ os.length = is.length ∧
      ∀ o ∈ os, post o := by
  induction is generalizing s with
  | nil => exact ⟨[], s, rfl, hinv, rfl, by simp⟩
  | cons i is ih =>
    obtain ⟨hfirst_ok, hrest⟩ := hguard
    obtain ⟨o, s₁, hfirst, hinv₁, hpost⟩ := hstep i s hinv hfirst_ok
    obtain ⟨os, s₂, hothers, hinv₂, hlen, hposts⟩ := ih hinv₁ (hrest o s₁ hfirst)
    refine ⟨o :: os, s₂, ?_, hinv₂, congrArg (· + 1) hlen, ?_⟩
    · rw [runAll, hfirst]
      change (runAll step is s₁ >>= fun r => pure (o :: r.1, r.2)) = _
      rw [hothers]
      rfl
    · intro o' hmem
      rcases List.mem_cons.mp hmem with rfl | hmem
      · exact hpost
      · exact hposts o' hmem

theorem runAll_keeps_guarded {step : ι → σ → Except ε (ω × σ)} {guard : ι → σ → Prop}
    (inv : σ → Prop) (post : ω → Prop)
    (hstep : ∀ i s o s', inv s → guard i s → step i s = .ok (o, s') → inv s' ∧ post o)
    (is : List ι) {s s' : σ} {os : List ω} (hinv : inv s) (hguard : Guarded step guard is s)
    (hrun : runAll step is s = .ok (os, s')) : inv s' ∧ ∀ o ∈ os, post o := by
  induction is generalizing s os with
  | nil =>
    cases hrun
    exact ⟨hinv, by simp⟩
  | cons i is ih =>
    obtain ⟨o, s₁, os', hfirst, hothers, rfl⟩ := runAll_cons.mp hrun
    obtain ⟨hinv₁, hpost⟩ := hstep i s o s₁ hinv hguard.1 hfirst
    obtain ⟨hinv', hposts⟩ := ih hinv₁ (hguard.2 o s₁ hfirst) hothers
    exact ⟨hinv', List.forall_mem_cons.mpr ⟨hpost, hposts⟩⟩

/-- A guard that is on the commands alone. -/
theorem guarded_of_forall {step : ι → σ → Except ε (ω × σ)} {guard : ι → Prop}
    {is : List ι} (h : ∀ i ∈ is, guard i) (s : σ) : Guarded step (fun i _ => guard i) is s := by
  induction is generalizing s with
  | nil => trivial
  | cons i is ih =>
    obtain ⟨hfirst, hrest⟩ := List.forall_mem_cons.mp h
    exact ⟨hfirst, fun _ s' _ => ih hrest s'⟩

theorem guarded_true {step : ι → σ → Except ε (ω × σ)} (is : List ι) (s : σ) :
    Guarded step (fun _ _ => True) is s :=
  guarded_of_forall (fun _ _ => trivial) s

theorem runAll_keeps {step : ι → σ → Except ε (ω × σ)} (inv : σ → Prop) (post : ω → Prop)
    (hstep : ∀ i s o s', inv s → step i s = .ok (o, s') → inv s' ∧ post o)
    (is : List ι) {s s' : σ} {os : List ω} (hinv : inv s) (hrun : runAll step is s = .ok (os, s')) :
    inv s' ∧ ∀ o ∈ os, post o :=
  runAll_keeps_guarded inv post (fun i s o s' hinv _ h => hstep i s o s' hinv h)
    is hinv (guarded_true is s) hrun

section History

variable {α : Type} {P : List α → α → Prop} {l : List α}

/-- Every element of the history is right after the elements before it. -/
def Throughout (P : List α → α → Prop) (l : List α) : Prop :=
  ∀ before x after, l = before ++ x :: after → P before x

theorem throughout_nil : Throughout P [] := by
  intro before x after h
  cases before <;> cases h

theorem throughout_snoc {y : α} : Throughout P (l ++ [y]) ↔ Throughout P l ∧ P l y := by
  constructor
  · intro h
    refine ⟨fun before x after heq => h before x (after ++ [y]) ?_, h l y [] rfl⟩
    rw [heq, List.append_assoc, List.cons_append]
  · rintro ⟨hinit, hlast⟩ before x after heq
    rcases List.eq_nil_or_concat' after with rfl | ⟨after, z, rfl⟩
    · obtain ⟨rfl, hxy⟩ := List.append_inj' heq rfl
      rwa [← List.singleton_inj.mp hxy]
    · rw [← List.cons_append, ← List.append_assoc] at heq
      exact hinit before x after (List.append_inj' heq rfl).1

end History

end ModbusPp.Foundation

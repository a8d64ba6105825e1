import ModbusPp.Foundation.Run

/-! Two runs of one machine that differ in hidden commands only. `key` is what is visible
of a command. If a hidden command keeps the states related and shows nothing, and two
commands with the same key keep them related and show the same, then runs with the same
visible commands show the same. -/

namespace ModbusPp.Foundation

variable {ε ι κ σ ω α : Type} {step : ι → σ → Except ε (ω × σ)}

/-- What the steps must satisfy, each taken where its run's guard admits it. -/
structure Unwinding (step : ι → σ → Except ε (ω × σ)) (key : ι → Option κ) (Rel : σ → σ → Prop)
    (guard guard' : ι → σ → Prop) (show₁ show₂ : ω → List α) : Prop where
  left : ∀ i s o s' t, key i = none → guard i s → Rel s t → step i s = .ok (o, s') →
    Rel s' t ∧ show₁ o = []
  right : ∀ j s t p t', key j = none → guard' j t → Rel s t → step j t = .ok (p, t') →
    Rel s t' ∧ show₂ p = []
  both : ∀ i j k s o s' t p t', key i = some k → key j = some k → guard i s → guard' j t → Rel s t →
    step i s = .ok (o, s') → step j t = .ok (p, t') → Rel s' t' ∧ show₁ o = show₂ p

variable {key : ι → Option κ} {Rel : σ → σ → Prop} {guard guard' : ι → σ → Prop}
  {show₁ show₂ : ω → List α}

/-- Hidden commands alone. -/
theorem Unwinding.hidden (h : Unwinding step key Rel guard guard' show₁ show₂)
    (js : List ι) {s t t' : σ} {ps : List ω} (hhidden : js.filterMap key = [])
    (hguard : Guarded step guard' js t) (hrel : Rel s t) (hrun : runAll step js t = .ok (ps, t')) :
    Rel s t' ∧ ps.flatMap show₂ = [] := by
  induction js generalizing t ps with
  | nil =>
    cases hrun
    exact ⟨hrel, rfl⟩
  | cons j js ih =>
    obtain ⟨p, t₁, ps', hfirst, hothers, rfl⟩ := runAll_cons.mp hrun
    have hj : key j = none := (List.filterMap_eq_nil_iff.mp hhidden) j List.mem_cons_self
    rw [List.filterMap_cons_none hj] at hhidden
    obtain ⟨hrel₁, hshow⟩ := h.right j s t p t₁ hj hguard.1 hrel hfirst
    obtain ⟨hrel', hshow'⟩ := ih hhidden (hguard.2 p t₁ hfirst) hrel₁ hothers
    exact ⟨hrel', by rw [List.flatMap_cons, hshow, hshow']; rfl⟩

/-- One visible command against a run that begins with hidden ones. -/
theorem Unwinding.visible (h : Unwinding step key Rel guard guard' show₁ show₂)
    {i : ι} {k : κ} (hi : key i = some k) {s s₁ : σ} {o : ω} (hs : guard i s)
    (hstep : step i s = .ok (o, s₁)) (js : List ι) {ks : List κ} {t t' : σ}
    {ps : List ω} (hjs : js.filterMap key = k :: ks) (hguard : Guarded step guard' js t)
    (hrel : Rel s t) (hrun : runAll step js t = .ok (ps, t')) :
    ∃ js' t₁ ps', js'.filterMap key = ks ∧ Guarded step guard' js' t₁ ∧ Rel s₁ t₁ ∧
      runAll step js' t₁ = .ok (ps', t') ∧ ps.flatMap show₂ = show₁ o ++ ps'.flatMap show₂ := by
  induction js generalizing t ps with
  | nil => cases hjs
  | cons j js ih =>
    obtain ⟨p, t₁, ps', hfirst, hothers, rfl⟩ := runAll_cons.mp hrun
    rw [List.flatMap_cons]
    cases hj : key j with
    | none =>
      rw [List.filterMap_cons_none hj] at hjs
      obtain ⟨hrel₁, hshow⟩ := h.right j s t p t₁ hj hguard.1 hrel hfirst
      obtain ⟨js', t₂, ps'', hkeys, hguarded, hrel₂, hrest, heq⟩ :=
        ih hjs (hguard.2 p t₁ hfirst) hrel₁ hothers
      exact ⟨js', t₂, ps'', hkeys, hguarded, hrel₂, hrest, by rw [hshow, heq]; rfl⟩
    | some k' =>
      rw [List.filterMap_cons_some hj, List.cons.injEq] at hjs
      obtain ⟨rfl, hkeys⟩ := hjs
      obtain ⟨hrel₁, hshow⟩ := h.both i j k' s o s₁ t p t₁ hi hj hs hguard.1 hrel hstep hfirst
      exact ⟨js, t₁, ps', hkeys, hguard.2 p t₁ hfirst, hrel₁, hothers, by rw [hshow]⟩

/-- Runs with the same visible commands stay related, and show the same. -/
theorem Unwinding.run (h : Unwinding step key Rel guard guard' show₁ show₂)
    (is js : List ι) {s s' t t' : σ} {os ps : List ω}
    (hkeys : is.filterMap key = js.filterMap key) (hguard : Guarded step guard is s)
    (hguard' : Guarded step guard' js t) (hrel : Rel s t) (hrun : runAll step is s = .ok (os, s'))
    (hrun' : runAll step js t = .ok (ps, t')) :
    Rel s' t' ∧ os.flatMap show₁ = ps.flatMap show₂ := by
  induction is generalizing js s os t ps with
  | nil =>
    cases hrun
    obtain ⟨hrel', hshow⟩ := h.hidden js hkeys.symm hguard' hrel hrun'
    exact ⟨hrel', hshow.symm⟩
  | cons i is ih =>
    obtain ⟨o, s₁, os', hfirst, hothers, rfl⟩ := runAll_cons.mp hrun
    rw [List.flatMap_cons]
    cases hi : key i with
    | none =>
      rw [List.filterMap_cons_none hi] at hkeys
      obtain ⟨hrel₁, hshow⟩ := h.left i s o s₁ t hi hguard.1 hrel hfirst
      obtain ⟨hrel', heq⟩ := ih js hkeys (hguard.2 o s₁ hfirst) hguard' hrel₁ hothers hrun'
      exact ⟨hrel', by rw [hshow, heq]; rfl⟩
    | some k =>
      rw [List.filterMap_cons_some hi] at hkeys
      obtain ⟨js', t₁, ps', hkeys', hguarded, hrel₁, hrest, heq⟩ :=
        h.visible hi hguard.1 hfirst js hkeys.symm hguard'
        hrel hrun'
      obtain ⟨hrel', hsame⟩ :=
        ih js' hkeys'.symm (hguard.2 o s₁ hfirst) hguarded hrel₁ hothers hrest
      exact ⟨hrel', by rw [heq, hsame]⟩

end ModbusPp.Foundation

import ModbusPp.Foundation.Run

/-! Entries that wait and messages that arrive. A message may have something for an entry,
and an entry leaves with the first thing that arrives for it. What a run of arrivals does
is then fixed by the messages, and where no two of them are for the same entry their order
does not matter. -/

namespace ModbusPp.Foundation

open List (Perm)

variable {α β γ μ : Type} {brings : μ → α → Option β} {out : α → β → List γ}

/-- The first thing that the messages bring for the entry. -/
def firstFor (brings : μ → α → Option β) (msgs : List μ) (a : α) : Option β :=
  msgs.findSome? fun m => brings m a

@[simp] theorem firstFor_nil (a : α) : firstFor brings [] a = none := rfl

theorem firstFor_append (msgs msgs' : List μ) (a : α) :
    firstFor brings (msgs ++ msgs') a = (firstFor brings msgs a).or (firstFor brings msgs' a) :=
  List.findSome?_append

theorem firstFor_cons (m : μ) (msgs : List μ) (a : α) :
    firstFor brings (m :: msgs) a = (brings m a).or (firstFor brings msgs a) :=
  firstFor_append [m] msgs a ▸ by rw [firstFor, List.findSome?_singleton]

/-- Of two messages at most one is for the entry. -/
def OneFor (brings : μ → α → Option β) (a : α) (m m' : μ) : Prop :=
  brings m a = none ∨ brings m' a = none

theorem firstFor_perm {msgs msgs' : List μ} (h : msgs.Perm msgs') (a : α)
    (hone : msgs.Pairwise (OneFor brings a)) :
    firstFor brings msgs a = firstFor brings msgs' a := by
  induction h with
  | nil => rfl
  | cons m _ ih => rw [firstFor_cons, firstFor_cons, ih (List.pairwise_cons.mp hone).2]
  | swap m m' msgs =>
    rw [firstFor_cons, firstFor_cons, firstFor_cons,
      firstFor_cons, ← Option.or_assoc, ← Option.or_assoc]
    rcases (List.pairwise_cons.mp hone).1 m List.mem_cons_self with hnone | hnone <;> simp [hnone]
  | trans h₁ _ ih₁ ih₂ =>
    have hsymm : ∀ {m m' : μ}, OneFor brings a m m' → OneFor brings a m' m := Or.symm
    exact (ih₁ hone).trans (ih₂ ((h₁.pairwise_iff hsymm).mp hone))

/-- The messages are brought to those that wait: the entries they are for leave, each with
its output, and the others stay. -/
structure Serves (brings : μ → α → Option β) (out : α → β → List γ)
    (waiting : List α) (msgs : List μ) (waiting' : List α) (served : List γ) : Prop where
  kept : waiting' = waiting.filter fun a => (firstFor brings msgs a).isNone
  served : served.Perm (waiting.flatMap fun a => (firstFor brings msgs a).elim [] (out a))

variable {waiting waiting₁ waiting₂ : List α} {msgs msgs₁ msgs₂ : List μ}
  {served served₁ served₂ : List γ}

theorem Serves.nil (waiting : List α) : Serves brings out waiting [] waiting [] where
  kept := (List.filter_eq_self.mpr fun _ _ => rfl).symm
  served := by simp

theorem flatMap_served (brings : μ → α → Option β) (out : α → β → List γ)
    (waiting : List α) (msgs₁ msgs₂ : List μ) :
    (waiting.flatMap fun a => (firstFor brings (msgs₁ ++ msgs₂) a).elim [] (out a)).Perm
      ((waiting.flatMap fun a => (firstFor brings msgs₁ a).elim [] (out a)) ++
        (waiting.filter fun a => (firstFor brings msgs₁ a).isNone).flatMap fun a =>
          (firstFor brings msgs₂ a).elim [] (out a)) := by
  induction waiting with
  | nil => exact .nil
  | cons a waiting ih =>
    rw [List.flatMap_cons, List.flatMap_cons, firstFor_append]
    cases hfirst : firstFor brings msgs₁ a with
    | some b =>
      rw [Option.some_or, List.filter_cons_of_neg (by simp [hfirst]), List.append_assoc]
      exact ih.append_left _
    | none =>
      rw [Option.none_or, List.filter_cons_of_pos (by simp [hfirst]), List.flatMap_cons]
      exact (ih.append_left _).trans (List.perm_append_comm_assoc _ _ _)

theorem Serves.append (h₁ : Serves brings out waiting msgs₁ waiting₁ served₁)
    (h₂ : Serves brings out waiting₁ msgs₂ waiting₂ served₂) :
    Serves brings out waiting (msgs₁ ++ msgs₂) waiting₂ (served₁ ++ served₂) where
  kept := by
    rw [h₂.kept, h₁.kept, List.filter_filter]
    refine List.filter_congr fun a _ => ?_
    rw [firstFor_append, Option.isNone_or, Bool.and_comm]
  served := by
    refine .trans ?_ (flatMap_served brings out waiting msgs₁ msgs₂).symm
    rw [← h₁.kept]
    exact h₁.served.append h₂.served

/-- Where each step serves those that wait, a run serves them with all that it got. `P` is
what the steps need to know of the entries. -/
theorem runAll_serves {ε ι σ ω : Type} {step : ι → σ → Except ε (ω × σ)}
    (content : σ → List α) (got : ω → List μ) (gave : ω → List γ) (P : α → Prop) (is : List ι)
    (hstep : ∀ i ∈ is, ∀ s o s', (∀ a ∈ content s, P a) → step i s = .ok (o, s') →
      Serves brings out (content s) (got o) (content s') (gave o))
    {s s' : σ} {os : List ω} (hP : ∀ a ∈ content s, P a) (hrun : runAll step is s = .ok (os, s')) :
    Serves brings out (content s) (os.flatMap got) (content s') (os.flatMap gave) := by
  induction is generalizing s os with
  | nil =>
    cases hrun
    exact .nil _
  | cons i is ih =>
    obtain ⟨o, s₁, os', hfirst, hothers, rfl⟩ := runAll_cons.mp hrun
    have hone := hstep i List.mem_cons_self s o s₁ hP hfirst
    have hP₁ : ∀ a ∈ content s₁, P a := fun a ha => hP a (List.mem_of_mem_filter (hone.kept ▸ ha))
    exact hone.append (ih (fun j hj => hstep j (List.mem_cons_of_mem i hj)) hP₁ hothers)

/-- In which order the messages arrive does not matter where at most one is for each entry. -/
theorem Serves.perm (h₁ : Serves brings out waiting msgs₁ waiting₁ served₁)
    (h₂ : Serves brings out waiting msgs₂ waiting₂ served₂) (hperm : msgs₁.Perm msgs₂)
    (hone : ∀ a ∈ waiting, msgs₁.Pairwise (OneFor brings a)) :
    waiting₁ = waiting₂ ∧ served₁.Perm served₂ := by
  have hsame : ∀ a ∈ waiting, firstFor brings msgs₁ a = firstFor brings msgs₂ a :=
    fun a ha => firstFor_perm hperm a (hone a ha)
  constructor
  · rw [h₁.kept, h₂.kept]
    exact List.filter_congr fun a ha => by rw [hsame a ha]
  · have hflat : (waiting.flatMap fun a => (firstFor brings msgs₁ a).elim [] (out a)) =
        waiting.flatMap fun a => (firstFor brings msgs₂ a).elim [] (out a) :=
      List.flatMap_congr fun a ha => by rw [hsame a ha]
    exact h₁.served.trans (hflat ▸ h₂.served.symm)

end ModbusPp.Foundation

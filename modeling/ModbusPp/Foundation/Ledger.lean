import ModbusPp.Foundation.Run

/-! Stores over runs. Items enter a store and leave it, step by step, and each
carries a label that no other item is given. The books balance over every run
that returns: what was there at the start and what entered is what left and what
is there at the end, so an item that entered is still there or left once. -/

namespace ModbusPp.Foundation

open List (Perm)

variable {ε ι σ ω α : Type}

/-- What a step brings into a store and takes out of it. The labels of what it
brings in are not below a counter, which it then moves past them. -/
structure Ledger (step : ι → σ → Except ε (ω × σ)) (α : Type) where
  content : σ → List α
  entered : ω → List α
  left : ω → List α
  label : α → ℕ
  next : σ → ℕ
  balance : ∀ {i s o s'}, step i s = .ok (o, s') →
    Perm (content s ++ entered o) (left o ++ content s')
  next_le : ∀ {i s o s'}, step i s = .ok (o, s') → next s ≤ next s'
  fresh : ∀ {i s o s'}, step i s = .ok (o, s') → ∀ a ∈ entered o, next s ≤ label a ∧
  label a < next s'
  distinct : ∀ {i s o s'}, step i s = .ok (o, s') → ((entered o).map label).Nodup

namespace Ledger

variable {step : ι → σ → Except ε (ω × σ)} (L : Ledger step α) {is : List ι}
  {s s' : σ} {os : List ω}

theorem run_balance (hrun : runAll step is s = .ok (os, s')) :
    Perm (L.content s ++ os.flatMap L.entered) (os.flatMap L.left ++ L.content s') := by
  induction is generalizing s os with
  | nil =>
    cases hrun
    simp
  | cons i is ih =>
    obtain ⟨o, s₁, os', hfirst, hothers, rfl⟩ := runAll_cons.mp hrun
    simp only [List.flatMap_cons, List.append_assoc]
    calc L.content s ++ (L.entered o ++ os'.flatMap L.entered)
        _ = (L.content s ++ L.entered o) ++ os'.flatMap L.entered := (List.append_assoc _ _ _).symm
        Perm _ ((L.left o ++ L.content s₁) ++ os'.flatMap L.entered) :=
          (L.balance hfirst).append_right _
        _ = L.left o ++ (L.content s₁ ++ os'.flatMap L.entered) := List.append_assoc _ _ _
        Perm _ (L.left o ++ (os'.flatMap L.left ++ L.content s')) := (ih hothers).append_left _

theorem run_next_le (hrun : runAll step is s = .ok (os, s')) : L.next s ≤ L.next s' :=
  (runAll_keeps (fun t => L.next s ≤ L.next t) (fun _ => True)
    (fun _ _ _ _ hle h => ⟨Nat.le_trans hle (L.next_le h), trivial⟩) is (Nat.le_refl _) hrun).1

theorem run_fresh (hrun : runAll step is s = .ok (os, s')) {a : α} (ha : a ∈ os.flatMap L.entered) :
    L.next s ≤ L.label a ∧ L.label a < L.next s' := by
  induction is generalizing s os with
  | nil =>
    cases hrun
    contradiction
  | cons i is ih =>
    obtain ⟨o, s₁, os', hfirst, hothers, rfl⟩ := runAll_cons.mp hrun
    rw [List.flatMap_cons, List.mem_append] at ha
    rcases ha with hnow | hlater
    · obtain ⟨hlow, hhigh⟩ := L.fresh hfirst a hnow
      exact ⟨hlow, Nat.lt_of_lt_of_le hhigh (L.run_next_le hothers)⟩
    · obtain ⟨hlow, hhigh⟩ := ih hothers hlater
      exact ⟨Nat.le_trans (L.next_le hfirst) hlow, hhigh⟩

/-- No label is given twice in a run. -/
theorem run_distinct (hrun : runAll step is s = .ok (os, s')) :
    ((os.flatMap L.entered).map L.label).Nodup := by
  induction is generalizing s os with
  | nil =>
    cases hrun
    exact List.nodup_nil
  | cons i is ih =>
    obtain ⟨o, s₁, os', hfirst, hothers, rfl⟩ := runAll_cons.mp hrun
    rw [List.flatMap_cons, List.map_append]
    refine List.nodup_append.mpr ⟨L.distinct hfirst, ih hothers, ?_⟩
    rintro _ hnow _ hlater rfl
    obtain ⟨a, ha, hlabel⟩ := List.mem_map.mp hnow
    obtain ⟨b, hb, hlabel'⟩ := List.mem_map.mp hlater
    have hnow_lt := (L.fresh hfirst a ha).2
    have hlater_ge := (L.run_fresh hothers hb).1
    omega

/-- From an empty store on, what left and what is still there are all different. -/
theorem run_once (hempty : L.content s = []) (hrun : runAll step is s = .ok (os, s')) :
    ((os.flatMap L.left ++ L.content s').map L.label).Nodup := by
  have hbalance := L.run_balance hrun
  rw [hempty, List.nil_append] at hbalance
  exact (hbalance.map L.label).nodup_iff.mp (L.run_distinct hrun)

/-- What was in the store or entered it is there or has left. -/
theorem run_accounted (hrun : runAll step is s = .ok (os, s')) {a : α}
    (ha : a ∈ L.content s ++ os.flatMap L.entered) :
    (∃ o ∈ os, a ∈ L.left o) ∨ a ∈ L.content s' := by
  rcases List.mem_append.mp ((L.run_balance hrun).mem_iff.mp ha) with hleft | hstill
  · exact .inl (List.mem_flatMap.mp hleft)
  · exact .inr hstill

/-- From an empty store on, what left had entered. -/
theorem run_entered (hempty : L.content s = []) (hrun : runAll step is s = .ok (os, s')) {a : α}
    (ha : a ∈ os.flatMap L.left) : a ∈ os.flatMap L.entered := by
  have hbalance := L.run_balance hrun
  rw [hempty, List.nil_append] at hbalance
  exact hbalance.mem_iff.mpr (List.mem_append_left _ ha)

end Ledger

end ModbusPp.Foundation

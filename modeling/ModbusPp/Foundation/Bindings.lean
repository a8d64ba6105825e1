import Mathlib.Data.List.Dedup
import Mathlib.Data.List.Induction

/-! Maps as lists of bindings with one binding for each key. A change sets a key or removes
it. After any changes, what a key is bound to is what the last change to it has made of it. -/

namespace ModbusPp.Foundation

variable {κ υ : Type} [DecidableEq κ]

/-- The new value of a key, or none to remove it. -/
structure Change (κ υ : Type) where
  key : κ
  value : Option υ
  deriving DecidableEq

namespace Bindings

def find (k : κ) (m : List (κ × υ)) : Option υ := (m.find? (·.1 = k)).map Prod.snd

def change (c : Change κ υ) (m : List (κ × υ)) : List (κ × υ) :=
  (c.value.map fun v => (c.key, v)).toList ++ m.filter (·.1 ≠ c.key)

/-- What the changes make of a key. -/
def latest (k : κ) (changes : List (Change κ υ)) : Option υ :=
  changes.foldl (fun value c => if c.key = k then c.value else value) none

variable {k : κ} {c : Change κ υ} {m : List (κ × υ)} {changes : List (Change κ υ)}

theorem latest_snoc :
    latest k (changes ++ [c]) = if c.key = k then c.value else latest k changes := by
  rw [latest, List.foldl_append]
  rfl

theorem find_change : find k (change c m) = if c.key = k then c.value else find k m := by
  obtain ⟨key, value⟩ := c
  have hfilter :
      (m.filter (·.1 ≠ key)).find? (·.1 = k) = if key = k then none else m.find? (·.1 = k) := by
    split_ifs with hk
    · rw [List.find?_eq_none]
      rintro b hb
      simpa [hk] using (List.mem_filter.mp hb).2
    · rw [List.find?_filter]
      congr 1
      funext b
      by_cases hb : b.1 = k
      · simp [hb, Ne.symm hk]
      · simp [hb]
  unfold find change
  rw [List.find?_append, hfilter]
  cases value with
  | none => split_ifs <;> rfl
  | some v =>
    by_cases hk : key = k
    · simp [hk]
    · simp [hk]

/-- Every key is bound once, to what the changes have made of it. -/
structure Binds (m : List (κ × υ)) (changes : List (Change κ υ)) : Prop where
  find : ∀ k, find k m = latest k changes
  nodup : (m.map Prod.fst).Nodup

theorem binds_nil : Binds ([] : List (κ × υ)) [] := ⟨fun _ => rfl, List.nodup_nil⟩

theorem Binds.change (h : Binds m changes) (c : Change κ υ) :
    Binds (change c m) (changes ++ [c]) where
  find k := by rw [find_change, latest_snoc, h.find]
  nodup := by
    have hrest : ((m.filter (·.1 ≠ c.key)).map Prod.fst).Nodup :=
      h.nodup.sublist (List.filter_sublist.map _)
    unfold Bindings.change
    cases c.value with
    | none => exact hrest
    | some v =>
      refine List.nodup_cons.mpr ⟨fun hmem => ?_, hrest⟩
      obtain ⟨b, hb, hkey⟩ := List.mem_map.mp hmem
      simpa [hkey] using (List.mem_filter.mp hb).2

theorem mem_keys : k ∈ m.map Prod.fst ↔ (find k m).isSome := by
  rw [find, Option.isSome_map, List.find?_isSome, List.mem_map]
  simp

theorem key_of_latest (h : (latest k changes).isSome) : k ∈ changes.map Change.key := by
  induction changes using List.reverseRecOn with
  | nil => cases h
  | append_singleton changes c ih =>
    rw [latest_snoc] at h
    rw [List.map_append, List.mem_append]
    split_ifs at h with hk
    · exact .inr (by simp [hk])
    · exact .inl (ih h)

/-- There are as many bindings as keys that were changed and are bound to something. -/
theorem Binds.length (h : Binds m changes) :
    m.length = (changes.map Change.key).dedup.countP fun k => (latest k changes).isSome := by
  have hperm : List.Perm (m.map Prod.fst)
      ((changes.map Change.key).dedup.filter fun k => (latest k changes).isSome) := by
    rw [List.perm_ext_iff_of_nodup h.nodup ((List.nodup_dedup _).filter _)]
    intro k
    rw [mem_keys, h.find, List.mem_filter, List.mem_dedup]
    exact ⟨fun hsome => ⟨key_of_latest hsome, hsome⟩, fun hmem => hmem.2⟩
  rw [List.countP_eq_length_filter, ← hperm.length_eq, List.length_map]

end Bindings

end ModbusPp.Foundation

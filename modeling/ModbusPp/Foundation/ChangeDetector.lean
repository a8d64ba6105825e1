import Mathlib.Data.List.Basic

/-! Reports of a sampled signal. A detector reports a reading when it jumps from
the reading before it. The readings stay close to the last report if and only if
they are steady: between two jumps they do not creep away from the first one. -/

namespace ModbusPp.Foundation

/-- What one sampling step reads, and what it reports. -/
structure Sample (α : Type) where
  reading : α
  reports : List α

namespace Sample

variable {α : Type} (jumps : α → α → Bool) (close : α → α → Prop)

/-- A reading is reported exactly if it jumps from the one before. -/
def Detects : α → List (Sample α) → Prop
  | _, [] => True
  | previous, s :: later =>
    s.reports = (if jumps s.reading previous then [s.reading] else []) ∧ Detects s.reading later

/-- The last report, or the one there was before. -/
def lastReport (before : Option α) (samples : List (Sample α)) : Option α :=
  (samples.flatMap reports).getLast?.or before

/-- After every step, the reading is close to the last report. -/
def Tracks (before : Option α) (samples : List (Sample α)) : Prop :=
  ∀ earlier s later, samples = earlier ++ s :: later →
    ∀ told, lastReport before (earlier ++ [s]) = some told → close s.reading told

/-- Readings that do not jump are close to the last one that did. -/
def Steady : Option α → α → List α → Prop
  | _, _, [] => True
  | anchor, previous, reading :: later =>
    if jumps reading previous then Steady (some reading) reading later
    else (∀ a ∈ anchor, close reading a) ∧ Steady anchor reading later

variable {jumps close}

theorem lastReport_cons (before : Option α) (s : Sample α) (later : List (Sample α)) :
    lastReport before (s :: later) = lastReport (lastReport before [s]) later := by
  rw [lastReport, lastReport, lastReport, List.flatMap_cons, List.getLast?_append, Option.or_assoc,
    List.flatMap_singleton]

theorem tracks_cons {before : Option α} {s : Sample α} {later : List (Sample α)} :
    Tracks close before (s :: later) ↔
      (∀ told, lastReport before [s] = some told → close s.reading told) ∧
        Tracks close (lastReport before [s]) later := by
  constructor
  · intro h
    refine ⟨h [] s later rfl, fun earlier t rest heq told htold => ?_⟩
    refine h (s :: earlier) t rest (by rw [heq]; rfl) told ?_
    rw [List.cons_append, lastReport_cons, htold]
  · rintro ⟨hfirst, hlater⟩ earlier t rest heq told htold
    cases earlier with
    | nil =>
      cases heq
      exact hfirst told htold
    | cons s' earlier =>
      cases heq
      refine hlater earlier t rest rfl told ?_
      rw [← htold, List.cons_append]
      exact (lastReport_cons before _ _).symm

theorem tracks_iff_steady (hrefl : ∀ x, close x x) {samples : List (Sample α)}
    (before : Option α) (previous : α) (hdetects : Detects jumps previous samples) :
    Tracks close before samples ↔ Steady jumps close before previous (samples.map reading) := by
  induction samples generalizing before previous with
  | nil => exact iff_of_true (fun earlier s later heq => by simp at heq) trivial
  | cons s later ih =>
    obtain ⟨hreports, hlater⟩ := hdetects
    rw [tracks_cons, ih _ s.reading hlater, List.map_cons, Steady]
    by_cases hjumps : jumps s.reading previous = true
    · have hlast : lastReport before [s] = some s.reading := by simp [lastReport, hreports, hjumps]
      rw [hlast, if_pos hjumps]
      refine and_iff_right fun told htold => ?_
      rw [← Option.some.inj htold]
      exact hrefl s.reading
    · have hlast : lastReport before [s] = before := by simp [lastReport, hreports, hjumps]
      rw [hlast, if_neg hjumps]
      rfl

/-- A detector that every difference makes jump is never behind. `Regular` says which
readings there are. -/
theorem steady_of_exact (Regular : α → Prop)
    (hexact : ∀ x y, Regular x → Regular y → jumps x y = false → x = y)
    {readings : List α} (hall : ∀ x ∈ readings, Regular x) {anchor : Option α} {previous : α}
    (hprevious : Regular previous ∨ ∀ x, jumps x previous = true)
    (hanchor : ∀ a ∈ anchor, previous = a) :
    Steady jumps Eq anchor previous readings := by
  induction readings generalizing anchor previous with
  | nil => trivial
  | cons reading later ih =>
    obtain ⟨hreading, hlater⟩ := List.forall_mem_cons.mp hall
    rw [Steady]
    split_ifs with hjumps
    · exact ih hlater (.inl hreading) fun a ha => Option.some.inj ha
    · obtain hprevious | halways := hprevious
      · obtain rfl := hexact _ _ hreading hprevious (Bool.eq_false_iff.mpr hjumps)
        exact ⟨hanchor, ih hlater (.inl hreading) hanchor⟩
      · exact absurd (halways reading) hjumps

end Sample

end ModbusPp.Foundation

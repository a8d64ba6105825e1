import ModbusPp.Foundation.Run
import ModbusPp.RegisterMap.BatchOptimize

/-! Whether `BatchRequest::optimized` merges all that can be merged. The loop compares an
item with the last range of the result only, so two items that touch stay apart if the
sorted request has an item of another byte order between them. Below the top of the
address space there is no other way to miss a merge. -/

namespace ModbusPp

open Foundation

namespace BatchRequest

/-- Two ranges of one byte order overlap or are adjacent. -/
def Meets (a b : BatchItem) : Prop :=
  a.byteOrder = b.byteOrder ∧ a.startAddress.toNat ≤ rangeEnd b ∧ b.startAddress.toNat ≤ rangeEnd a

/-- No two of the items can be merged. -/
def Complete (items : List BatchItem) : Prop := items.Pairwise fun a b => ¬Meets a b

/-- An item that starts no earlier than `item` meets it. -/
def Touches (item curr : BatchItem) : Prop :=
  item.byteOrder = curr.byteOrder ∧ curr.startAddress.toNat ≤ rangeEnd item

/-- An item before `curr` touches it, and one of another byte order stands between. -/
def Split (prev : List BatchItem) (curr : BatchItem) : Prop :=
  ∃ before item between, prev = before ++ item :: between ∧ Touches item curr ∧
    ∃ other ∈ between, other.byteOrder ≠ curr.byteOrder

/-- No two items that touch have an item of another byte order between them. -/
def Unsplit (sorted : List BatchItem) : Prop :=
  Throughout (fun prev curr => ¬Split prev curr) sorted

/-- The item ends below the top of the address space. -/
def Below (item : BatchItem) : Prop := rangeEnd item ≤ 65535

instance (a b : BatchItem) : Decidable (Meets a b) := inferInstanceAs (Decidable (_ ∧ _))

instance (items : List BatchItem) : Decidable (Complete items) :=
  inferInstanceAs (Decidable (List.Pairwise _ _))

instance (item : BatchItem) : Decidable (Below item) := inferInstanceAs (Decidable (_ ≤ _))

variable {prev done : List BatchItem} {last curr next : BatchItem} {low : ℕ}

theorem Below.inSpace (h : Below curr) : InSpace curr := Nat.le_succ_of_le h

theorem Below.not_atTop (h : Below curr) : ¬AtTop curr := by
  rw [Below] at h
  rw [AtTop]
  omega

theorem touches_of_meets (h : Meets last curr) : Touches last curr := ⟨h.1, h.2.2⟩

theorem meets_iff_touches (hle : last.startAddress.toNat ≤ curr.startAddress.toNat) :
    Meets last curr ↔ Touches last curr :=
  ⟨touches_of_meets, fun h => ⟨h.1, hle.trans (start_le_rangeEnd curr), h.2⟩⟩

/-! ### The items before the current one -/

theorem not_split_nil (curr : BatchItem) : ¬Split [] curr := by
  rintro ⟨before, item, between, h, -⟩
  simp at h

/-- An item before `curr` that touches it is split from it or is in the run that ends `prev`. -/
theorem touched_iff (hprev : ∀ item ∈ prev, Below item) :
    (∃ item ∈ prev, Touches item curr) ↔ Split prev curr ∨ Reached prev curr := by
  constructor
  · rintro ⟨item, hmem, htouches⟩
    obtain ⟨before, between, rfl⟩ := List.append_of_mem hmem
    by_cases hother : ∃ other ∈ between, other.byteOrder ≠ curr.byteOrder
    · exact .inl ⟨before, item, between, rfl, htouches, hother⟩
    · push Not at hother
      refine .inr ⟨before, item, between, rfl, ?_, (hprev item hmem).not_atTop, htouches.2⟩
      rintro other hmem'
      rcases List.mem_cons.mp hmem' with rfl | hmem'
      · exact htouches.1
      · exact hother other hmem'
  · rintro (⟨before, item, between, rfl, htouches, -⟩ |
      ⟨before, item, between, rfl, hrun, -, hreach⟩)
    · exact ⟨item, by simp, htouches⟩
    · exact ⟨item, by simp, hrun item List.mem_cons_self, hreach⟩

theorem split_snoc : Split (prev ++ [curr]) next ↔
    Split prev next ∨ curr.byteOrder ≠ next.byteOrder ∧ ∃ item ∈ prev, Touches item next := by
  constructor
  · rintro ⟨before, item, between, heq, htouches, other, hmem, horder⟩
    rcases List.eq_nil_or_concat between with rfl | ⟨between, last, rfl⟩
    · simp at hmem
    · rw [List.concat_eq_append, ← List.cons_append, ← List.append_assoc] at heq
      obtain ⟨rfl, hlast⟩ := List.append_inj' heq rfl
      obtain rfl := List.singleton_inj.mp hlast
      rw [List.concat_eq_append, List.mem_append, List.mem_singleton] at hmem
      rcases hmem with hmem | rfl
      · exact .inl ⟨before, item, between, rfl, htouches, other, hmem, horder⟩
      · exact .inr ⟨horder, item, by simp, htouches⟩
  · rintro (⟨before, item, between, rfl, htouches, other, hmem, horder⟩ |
      ⟨horder, item, hmem, htouches⟩)
    · exact ⟨before, item, between ++ [curr], by simp, htouches, other,
        List.mem_append_left _ hmem, horder⟩
    · obtain ⟨before, between, rfl⟩ := List.append_of_mem hmem
      exact ⟨before, item, between ++ [curr], by simp, htouches, curr, by simp, horder⟩

theorem unsplit_snoc : Unsplit (prev ++ [curr]) ↔ Unsplit prev ∧ ¬Split prev curr := throughout_snoc

theorem order_of_reached (h : Reached prev curr) (h' : Reached prev next) :
    curr.byteOrder = next.byteOrder := by
  obtain ⟨before, item, between, rfl, hrun, -⟩ := h
  obtain ⟨before', item', between', heq, hrun', -⟩ := h'
  have hlast := congrArg List.getLast? heq
  rw [List.getLast?_append, List.getLast?_append,
    List.getLast?_eq_some_getLast (List.cons_ne_nil item between),
    List.getLast?_eq_some_getLast (List.cons_ne_nil item' between'), Option.some_or, Option.some_or,
    Option.some.injEq] at hlast
  have horder := hrun _ (List.getLast_mem (List.cons_ne_nil item between))
  rw [hlast] at horder
  exact horder.symm.trans (hrun' _ (List.getLast_mem _))

/-- The result after the items `prev`: from the address `low` on, an item touches a range
that is done exactly if it is split from an item, and the result can be merged no further
exactly if nothing was split. -/
structure Settled (prev done : List BatchItem) (last : BatchItem) (low : ℕ) : Prop where
  merged : Merged prev done last low
  below : ∀ item ∈ prev, Below item
  last_below : Below last
  done_le : ∀ d ∈ done, d.startAddress.toNat ≤ last.startAddress.toNat
  touched : ∀ curr, low ≤ curr.startAddress.toNat → ((∃ d ∈ done, Touches d curr) ↔ Split prev curr)
  complete : Complete (done ++ [last]) ↔ Unsplit prev

theorem complete_snoc : Complete (done ++ [curr]) ↔ Complete done ∧ ∀ d ∈ done, ¬Meets d curr := by
  simp only [Complete, List.pairwise_append, List.pairwise_singleton, List.mem_singleton,
    forall_eq, true_and]

theorem no_meets_iff (hle : ∀ d ∈ done, d.startAddress.toNat ≤ curr.startAddress.toNat) :
    (∀ d ∈ done, ¬Meets d curr) ↔ ¬∃ d ∈ done, Touches d curr := by
  rw [not_exists]
  refine forall_congr' fun d => ?_
  rw [not_and]
  exact forall_congr' fun hd => not_congr (meets_iff_touches (hle d hd))

theorem settled_first (h : Below curr) : Settled [curr] [] curr curr.startAddress.toNat where
  merged := merged_first h.inSpace
  below item hitem := by rwa [List.mem_singleton.mp hitem]
  last_below := h
  done_le d hd := absurd hd List.not_mem_nil
  touched next _ := by
    rw [show [curr] = [] ++ [curr] from rfl, split_snoc]
    simp [not_split_nil]
  complete := by
    have hunsplit : Unsplit ([] ++ [curr]) := unsplit_snoc.mpr ⟨throughout_nil, not_split_nil curr⟩
    exact iff_of_true (List.pairwise_singleton _ _) hunsplit

theorem Settled.merges_iff (h : Settled prev done last low) (hle : low ≤ curr.startAddress.toNat) :
    Merges last curr ↔ Touches last curr := by
  rw [merges_iff_rangeEnd h.merged.inSpace (h.merged.start_le.trans hle), Touches]
  simp only [h.last_below.not_atTop, not_false_eq_true, true_and]

theorem Settled.starts_le (h : Settled prev done last low) (hle : low ≤ curr.startAddress.toNat) :
    ∀ d ∈ done ++ [last], d.startAddress.toNat ≤ curr.startAddress.toNat := by
  have hlast := h.merged.start_le.trans hle
  intro d hd
  rcases List.mem_append.mp hd with hd | hd
  · exact (h.done_le d hd).trans hlast
  · rwa [List.mem_singleton.mp hd]

theorem below_snoc (h : ∀ item ∈ prev, Below item) (hcurr : Below curr) :
    ∀ item ∈ prev ++ [curr], Below item := by
  intro item hitem
  rcases List.mem_append.mp hitem with hitem | hitem
  · exact h item hitem
  · rwa [List.mem_singleton.mp hitem]

/-- The loop appends the item. -/
theorem Settled.push (h : Settled prev done last low)
    (hle : low ≤ curr.startAddress.toNat) (hcurr : Below curr)
    (hmerges : ¬Merges last curr) : Settled (prev ++ [curr])
    (done ++ [last]) curr curr.startAddress.toNat where
  merged := h.merged.push hle hcurr.inSpace hmerges
  below := below_snoc h.below hcurr
  last_below := hcurr
  done_le := h.starts_le hle
  touched next hnext := by
    have hlow := hle.trans hnext
    -- what is in the last run has another byte order than the appended item
    have hbreak (hreached : Reached prev next) : curr.byteOrder ≠ next.byteOrder := by
      intro horder
      obtain ⟨hsame, hreach⟩ :=
        (h.merges_iff hlow).mp ((h.merged.merges_iff next hlow).mpr hreached)
      exact hmerges ((h.merges_iff hle).mpr ⟨hsame.trans horder.symm, hnext.trans hreach⟩)
    have hdone : (∃ d ∈ done ++ [last], Touches d next) ↔ Split prev next ∨ Reached prev next := by
      rw [← h.touched next hlow, ← h.merged.merges_iff next hlow, h.merges_iff hlow]
      simp only [List.mem_append, List.mem_singleton, or_and_right, exists_or, exists_eq_left]
    rw [hdone, split_snoc, touched_iff h.below]
    tauto
  complete := by
    have hlast : ¬Touches last curr := fun ht => hmerges ((h.merges_iff hle).mpr ht)
    rw [complete_snoc, h.complete, unsplit_snoc,
      no_meets_iff (h.starts_le hle), ← h.touched curr hle]
    simp only [List.mem_append, List.mem_singleton, or_and_right, exists_or, exists_eq_left,
      hlast, or_false]

/-- The loop merges the item into the last range. -/
theorem Settled.merge (h : Settled prev done last low)
    (hle : low ≤ curr.startAddress.toNat) (hcurr : Below curr)
    (hmerges : Merges last curr) :
    Settled (prev ++ [curr]) done (mergeInto last curr) curr.startAddress.toNat where
  merged := h.merged.merge hle hcurr.inSpace hmerges
  below := below_snoc h.below hcurr
  last_below := Nat.le_of_lt_succ
    (mergeInto_below h.merged.inSpace (h.merged.start_le.trans hle) hcurr.inSpace hmerges)
  done_le := h.done_le
  touched next hnext := by
    have hreached := (h.merged.merges_iff curr hle).mp hmerges
    rw [h.touched next (hle.trans hnext), split_snoc, touched_iff h.below]
    constructor
    · exact .inl
    · rintro (hsplit | ⟨horder, hsplit | hreached'⟩)
      · exact hsplit
      · exact hsplit
      · exact absurd (order_of_reached hreached hreached') horder
  complete := by
    -- the merged range starts where the last one did
    have hstart : ∀ d ∈ done, d.startAddress.toNat ≤ (mergeInto last curr).startAddress.toNat :=
      h.done_le
    have hsame : Complete (done ++ [mergeInto last curr]) ↔ Complete (done ++ [last]) := by
      rw [complete_snoc, complete_snoc, no_meets_iff h.done_le, no_meets_iff hstart]
      rfl
    have hsplit : Unsplit prev → ¬Split prev curr := by
      intro hunsplit hsplit
      obtain ⟨d, hd, hdo, hds⟩ := (h.touched curr hle).mpr hsplit
      have htouches : Touches d last :=
        ⟨hdo.trans hmerges.2.symm, (h.merged.start_le.trans hle).trans hds⟩
      exact (complete_snoc.mp (h.complete.mpr hunsplit)).2 d hd
        ((meets_iff_touches (h.done_le d hd)).mpr htouches)
    rw [unsplit_snoc, and_iff_left_of_imp hsplit, ← h.complete, hsame]

theorem optimizedLoop_complete {sorted : List BatchItem} (h : Settled prev done last low)
    (hlow : ∀ item ∈ sorted, low ≤ item.startAddress.toNat)
    (hsorted : sorted.Pairwise fun a b => a.startAddress ≤ b.startAddress)
    (hbelow : ∀ item ∈ sorted, Below item) :
    Complete (optimizedLoop done last sorted) ↔ Unsplit (prev ++ sorted) := by
  induction sorted generalizing prev done last low with
  | nil => rw [optimizedLoop, List.append_nil, h.complete]
  | cons curr sorted ih =>
    obtain ⟨hfirst, hrest⟩ := List.pairwise_cons.mp hsorted
    have hcurr := hbelow curr List.mem_cons_self
    have hle := hlow curr List.mem_cons_self
    have hbelowRest : ∀ item ∈ sorted, Below item :=
      fun item hi => hbelow item (List.mem_cons_of_mem _ hi)
    have hlowRest : ∀ item ∈ sorted, curr.startAddress.toNat ≤ item.startAddress.toNat :=
      fun item hi => UInt16.le_iff_toNat_le.mp (hfirst item hi)
    rw [optimizedLoop, List.append_cons prev curr sorted]
    split_ifs with hmerges
    · exact ih (h.merge hle hcurr hmerges) hlowRest hrest hbelowRest
    · exact ih (h.push hle hcurr hmerges) hlowRest hrest hbelowRest

/-- Optimising merges all that can be merged exactly if the sorted request has no item of
another byte order between two items that touch. -/
theorem optimized_complete_iff {sort : List BatchItem → List BatchItem} {request : BatchRequest}
    (hsort : SortsByStart sort) (hbelow : ∀ item ∈ request.items, Below item) :
    Complete (optimized sort request).items ↔ Unsplit (sort request.items) := by
  have hperm := hsort.perm request.items
  obtain ⟨hnil, hitems⟩ | ⟨first, sorted, hcons, hitems⟩ := optimized_items hsort request
  · rw [hitems, hnil]
    exact iff_of_true List.Pairwise.nil throughout_nil
  · have hmem (item : BatchItem) (hi : item ∈ first :: sorted) : Below item :=
      hbelow item (hperm.mem_iff.mp (hcons ▸ hi))
    have hordered := hcons ▸ hsort.ordered request.items
    obtain ⟨hfirst, hrest⟩ := List.pairwise_cons.mp hordered
    rw [hitems, hcons]
    exact optimizedLoop_complete (settled_first (hmem first List.mem_cons_self))
      (fun item hi => UInt16.le_iff_toNat_le.mp (hfirst item hi)) hrest
      fun item hi => hmem item (List.mem_cons_of_mem _ hi)

/-- Of three neighbouring ranges the first two have one byte order. -/
theorem optimized_complete_neighbours :
    Complete (optimized sortByStart
      ⟨[⟨2, 2, .uint16, ⟨0⟩⟩, ⟨4, 2, .uint16, ⟨2⟩⟩, ⟨0, 2, .uint16, ⟨0⟩⟩]⟩).items := by
  refine (optimized_complete_iff sortByStart_sorts (by decide)).mpr ?_
  have hsorted : sortByStart [⟨2, 2, .uint16, ⟨0⟩⟩, ⟨4, 2, .uint16, ⟨2⟩⟩, ⟨0, 2, .uint16, ⟨0⟩⟩] =
      [] ++ [⟨0, 2, .uint16, ⟨0⟩⟩] ++ [⟨2, 2, .uint16, ⟨0⟩⟩] ++ [⟨4, 2, .uint16, ⟨2⟩⟩] := by decide
  rw [hsorted, unsplit_snoc, unsplit_snoc, unsplit_snoc]
  refine ⟨⟨⟨throughout_nil, not_split_nil _⟩, ?_⟩, ?_⟩
  · rw [split_snoc]
    simp [not_split_nil]
  · rw [split_snoc, split_snoc]
    simp [not_split_nil, Touches]

/-- Between two adjacent ranges of one byte order stands a range of another. -/
theorem interleaved_not_merged :
    ¬∀ (sort : List BatchItem → List BatchItem) (request : BatchRequest), SortsByStart sort →
      (∀ item ∈ request.items, 1 ≤ item.count ∧ Below item) →
        Complete (optimized sort request).items := by
  intro hall
  have hcomplete := hall sortByStart
    ⟨[⟨0, 2, .uint16, ⟨0⟩⟩, ⟨1, 2, .uint16, ⟨2⟩⟩, ⟨2, 2, .uint16, ⟨0⟩⟩]⟩
      sortByStart_sorts (by decide)
  have hresult :
    optimized sortByStart ⟨[⟨0, 2, .uint16, ⟨0⟩⟩, ⟨1, 2, .uint16, ⟨2⟩⟩, ⟨2, 2, .uint16, ⟨0⟩⟩]⟩ =
      ⟨[⟨0, 2, .uint16, ⟨0⟩⟩, ⟨1, 2, .uint16, ⟨2⟩⟩, ⟨2, 2, .uint16, ⟨0⟩⟩]⟩ := by decide
  rw [hresult] at hcomplete
  exact absurd hcomplete (by decide)

end BatchRequest

end ModbusPp

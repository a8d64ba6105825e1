import ModbusPp.Foundation.MaximalRanges
import ModbusPp.RegisterMap.BatchCompleteness

/-! The order in which items were added to a request. For items of one byte order
below the top of the address space the result of `optimized` is fixed by the items:
it has their maximal ranges, and a range keeps the type of its item if it has only one.
Neither the order of insertion nor the order `std::sort` leaves equal starts in shows. -/

namespace ModbusPp

open Foundation

namespace BatchRequest

/-- The item lies in the range of `r`. -/
def Within (r item : BatchItem) : Prop :=
  r.startAddress.toNat ≤ item.startAddress.toNat ∧ rangeEnd item ≤ rangeEnd r

instance (r item : BatchItem) : Decidable (Within r item) := inferInstanceAs (Decidable (_ ∧ _))

/-- The type of a range made of these items: a merge loses the type. -/
def groupType : List BatchItem → RegisterType
  | [item] => item.type
  | _ => .uint16

/-- `result` has the maximal ranges of the items, in increasing order. -/
structure Maximal (o : ByteOrder) (items result : List BatchItem) : Prop where
  ranges : MaximalRanges (fun item => item.startAddress.toNat) rangeEnd items result
  type_eq : ∀ r ∈ result, r.type = groupType (items.filter (Within r ·))
  order_eq : ∀ r ∈ result, r.byteOrder = o

variable {o : ByteOrder} {items items' result prev done : List BatchItem}
  {last curr r item : BatchItem}

theorem groupType_snoc (hne : items ≠ []) : groupType (items ++ [curr]) = .uint16 := by
  match items with
  | [] => exact absurd rfl hne
  | [_] => rfl
  | _ :: _ :: _ => rfl

theorem groupType_perm (h : items.Perm items') : groupType items = groupType items' := by
  match items, items' with
  | [], items' => rw [List.nil_perm.mp h]
  | [item], items' => rw [List.singleton_perm.mp h]
  | a :: b :: items, [] => exact absurd h.length_eq (by simp)
  | a :: b :: items, [item] => exact absurd h.length_eq (by simp)
  | _ :: _ :: _, _ :: _ :: _ => rfl

theorem Maximal.perm (h : Maximal o items result) (hperm : items.Perm items') :
    Maximal o items' result where
  ranges := h.ranges.perm hperm
  type_eq r hr := (h.type_eq r hr).trans (groupType_perm (hperm.filter _))
  order_eq := h.order_eq

/-! ### The items determine the result -/

/-- The item of a range, by its two ends. -/
def ofEnds (o : ByteOrder) (items : List BatchItem) (p : ℕ × ℕ) : BatchItem where
  startAddress := .ofNat p.1
  count := .ofNat (p.2 - p.1)
  type := groupType (items.filter fun item => p.1 ≤ item.startAddress.toNat ∧ rangeEnd item ≤ p.2)
  byteOrder := o

theorem Maximal.ofEnds_ends (h : Maximal o items result) (hr : r ∈ result) :
    ofEnds o items (ends (fun item => item.startAddress.toNat) rangeEnd r) = r := by
  have hcount : rangeEnd r - r.startAddress.toNat = r.count.toNat := Nat.add_sub_cancel_left ..
  obtain ⟨start, count, type, order⟩ := r
  rw [ofEnds, ends, BatchItem.mk.injEq]
  refine ⟨UInt16.ofNat_toNat, ?_, (h.type_eq _ hr).symm, (h.order_eq _ hr).symm⟩
  rw [hcount]
  exact UInt16.ofNat_toNat

theorem Maximal.unique (h : Maximal o items result) {result' : List BatchItem}
    (h' : Maximal o items result') :
    result = result' := by
  have hback {rs : List BatchItem} (h : Maximal o items rs) :
      (rs.map (ends (fun item => item.startAddress.toNat) rangeEnd)).map (ofEnds o items) = rs := by
    rw [List.map_map]
    exact (List.map_congr_left fun r hr => h.ofEnds_ends hr).trans (List.map_id rs)
  rw [← hback h, ← hback h', h.ranges.ends_unique start_le_rangeEnd h'.ranges]

/-! ### The loop -/

theorem filter_snoc_of_not_within (h : ¬Within r curr) :
    (prev ++ [curr]).filter (Within r ·) = prev.filter (Within r ·) := by
  rw [List.filter_append, List.filter_singleton, decide_eq_false h, cond_false, List.append_nil]

theorem filter_snoc_of_within (h : Within r curr) :
    (prev ++ [curr]).filter (Within r ·) = prev.filter (Within r ·) ++ [curr] := by
  rw [List.filter_append, List.filter_singleton, decide_eq_true h, cond_true]

theorem within_self (item : BatchItem) : Within item item := ⟨le_rfl, le_rfl⟩

theorem not_within_of_lt (h : rangeEnd r < curr.startAddress.toNat) : ¬Within r curr :=
  fun hwithin => (h.trans_le ((start_le_rangeEnd curr).trans hwithin.2)).false

theorem Maximal.nil (o : ByteOrder) : Maximal o [] [] where
  ranges := .nil
  type_eq _ hr := absurd hr List.not_mem_nil
  order_eq _ hr := absurd hr List.not_mem_nil

/-- An item behind all ranges is a range of its own. -/
theorem Maximal.push (h : Maximal o prev result)
    (hbehind : ∀ r ∈ result, rangeEnd r < curr.startAddress.toNat)
    (horder : curr.byteOrder = o) : Maximal o (prev ++ [curr]) (result ++ [curr]) where
  ranges := h.ranges.push hbehind
  type_eq r hr := by
    rcases List.mem_append.mp hr with hr | hr
    · rw [filter_snoc_of_not_within (not_within_of_lt (hbehind r hr)), h.type_eq r hr]
    · obtain rfl := List.mem_singleton.mp hr
      have hnone : prev.filter (Within r ·) = [] := by
        refine List.filter_eq_nil_iff.mpr fun item hitem => ?_
        obtain ⟨r', hr', hin⟩ := h.ranges.held item hitem
        have hlt := hbehind r' hr'
        have hle := start_le_rangeEnd item
        rw [decide_eq_true_eq]
        rintro ⟨hstart, -⟩
        omega
      rw [filter_snoc_of_within (within_self r), hnone]
      rfl
  order_eq r hr := by
    rcases List.mem_append.mp hr with hr | hr
    · exact h.order_eq r hr
    · rw [List.mem_singleton.mp hr, horder]

/-- An item that starts in the last range, or at its end, is merged into it. -/
theorem Maximal.merge (h : Maximal o prev (done ++ [last]))
    (hle : last.startAddress.toNat ≤ curr.startAddress.toNat)
    (hreach : curr.startAddress.toNat ≤ rangeEnd last)
    (hend : rangeEnd (mergeInto last curr) = max (rangeEnd last) (rangeEnd curr)) :
    Maximal o (prev ++ [curr]) (done ++ [mergeInto last curr]) where
  ranges := h.ranges.extend hle hreach rfl hend
  type_eq r hr := by
    rcases List.mem_append.mp hr with hr | hr
    · have hapart :=
        (List.pairwise_append.mp h.ranges.apart).2.2 r hr last (List.mem_singleton_self last)
      rw [filter_snoc_of_not_within (not_within_of_lt (hapart.trans_le hle))]
      exact h.type_eq r (List.mem_append_left _ hr)
    · obtain rfl := List.mem_singleton.mp hr
      -- the last range has an item already, and the new one joins it
      obtain ⟨item, hitem, hstart, hin⟩ := h.ranges.starts last (by simp)
      have hold : Within (mergeInto last curr) item :=
        ⟨hstart.ge, hend ▸ hin.trans (le_max_left _ _)⟩
      have hnew : Within (mergeInto last curr) curr := ⟨hle, hend ▸ le_max_right _ _⟩
      rw [filter_snoc_of_within hnew, groupType_snoc]
      · rfl
      · exact List.ne_nil_of_mem (List.mem_filter.mpr ⟨hitem, by simpa using hold⟩)
  order_eq r hr := by
    rcases List.mem_append.mp hr with hr | hr
    · exact h.order_eq r (List.mem_append_left _ hr)
    · rw [List.mem_singleton.mp hr]
      exact h.order_eq last (by simp)

/-- The ranges end before a later start that does not merge with the last one. -/
theorem Maximal.behind (h : Maximal o prev (done ++ [last]))
    (hlt : rangeEnd last < curr.startAddress.toNat) :
    ∀ r ∈ done ++ [last], rangeEnd r < curr.startAddress.toNat := by
  intro r hr
  rcases List.mem_append.mp hr with hr | hr
  · have hapart :=
      (List.pairwise_append.mp h.ranges.apart).2.2 r hr last (List.mem_singleton_self last)
    exact hapart.trans_le ((start_le_rangeEnd last).trans hlt.le)
  · rwa [List.mem_singleton.mp hr]

theorem optimizedLoop_maximal {sorted : List BatchItem}
    (h : Maximal o prev (done ++ [last])) (hlast : Below last)
    (hle : ∀ item ∈ sorted, last.startAddress.toNat ≤ item.startAddress.toNat)
    (hsorted : sorted.Pairwise fun a b => a.startAddress ≤ b.startAddress)
    (hbelow : ∀ item ∈ sorted, Below item) (horder : ∀ item ∈ sorted, item.byteOrder = o) :
    Maximal o (prev ++ sorted) (optimizedLoop done last sorted) := by
  induction sorted generalizing prev done last with
  | nil => rwa [optimizedLoop, List.append_nil]
  | cons curr sorted ih =>
    obtain ⟨hfirst, hrest⟩ := List.pairwise_cons.mp hsorted
    have hcurr := hbelow curr List.mem_cons_self
    have hstart := hle curr List.mem_cons_self
    have hbelowRest : ∀ item ∈ sorted, Below item :=
      fun item hi => hbelow item (List.mem_cons_of_mem _ hi)
    have horderRest : ∀ item ∈ sorted, item.byteOrder = o :=
      fun item hi => horder item (List.mem_cons_of_mem _ hi)
    have hlastOrder : last.byteOrder = curr.byteOrder :=
      (h.order_eq last (by simp)).trans (horder curr List.mem_cons_self).symm
    rw [optimizedLoop, List.append_cons prev curr sorted]
    split_ifs with hmerges
    · obtain ⟨-, -, hreach⟩ := (merges_iff_rangeEnd hlast.inSpace hstart).mp hmerges
      have hend := rangeEnd_mergeInto hlast.inSpace hstart hcurr.inSpace hmerges
      rw [if_neg hcurr.not_atTop] at hend
      have hbelowMerged := mergeInto_below hlast.inSpace hstart hcurr.inSpace hmerges
      exact ih (h.merge hstart hreach hend) (Nat.le_of_lt_succ hbelowMerged)
        (fun item hi => hle item (List.mem_cons_of_mem _ hi)) hrest hbelowRest horderRest
    · have hlt : rangeEnd last < curr.startAddress.toNat := by
        by_contra hge
        exact hmerges ((merges_iff_rangeEnd hlast.inSpace hstart).mpr
          ⟨hlastOrder, hlast.not_atTop, Nat.not_lt.mp hge⟩)
      exact ih (h.push (h.behind hlt) (horder curr List.mem_cons_self)) hcurr
        (fun item hi => UInt16.le_iff_toNat_le.mp (hfirst item hi)) hrest hbelowRest horderRest

theorem optimized_maximal {sort : List BatchItem → List BatchItem} (hsort : SortsByStart sort)
    (horder : ∀ item ∈ items, item.byteOrder = o) (hbelow : ∀ item ∈ items, Below item) :
    Maximal o items (optimized sort ⟨items⟩).items := by
  have hperm := hsort.perm items
  refine Maximal.perm ?_ hperm
  obtain ⟨hnil, hitems⟩ | ⟨first, sorted, hcons, hitems⟩ := optimized_items hsort ⟨items⟩
  · change sort items = [] at hnil
    rw [hitems, hnil]
    exact .nil o
  · change sort items = first :: sorted at hcons
    have hmem (item : BatchItem) (hi : item ∈ first :: sorted) : item ∈ items :=
      hperm.mem_iff.mp (hcons ▸ hi)
    have hordered := hcons ▸ hsort.ordered items
    obtain ⟨hfirst, hrest⟩ := List.pairwise_cons.mp hordered
    have hpushed : Maximal o ([] ++ [first]) ([] ++ [first]) :=
      (Maximal.nil o).push (fun r hr => absurd hr List.not_mem_nil)
        (horder first (hmem first List.mem_cons_self))
    rw [hitems, hcons]
    exact optimizedLoop_maximal hpushed (hbelow first (hmem first List.mem_cons_self))
      (fun item hi => UInt16.le_iff_toNat_le.mp (hfirst item hi)) hrest
      (fun item hi => hbelow item (hmem item (List.mem_cons_of_mem _ hi)))
      (fun item hi => horder item (hmem item (List.mem_cons_of_mem _ hi)))

/-- Neither the order of the items nor the order of equal starts shows in the result,
which has the maximal ranges of the items. -/
theorem optimized_order_free (sort sort' : List BatchItem → List BatchItem)
    (hsort : SortsByStart sort) (hsort' : SortsByStart sort')
    (items items' : List BatchItem) (hperm : items.Perm items') (o : ByteOrder)
    (horder : ∀ item ∈ items, item.byteOrder = o) (hbelow : ∀ item ∈ items, Below item) :
    (optimized sort ⟨items⟩).items = (optimized sort' ⟨items'⟩).items ∧
      Maximal o items (optimized sort ⟨items⟩).items := by
  have hmaximal := optimized_maximal hsort horder hbelow
  have hmaximal' : Maximal o items' (optimized sort' ⟨items'⟩).items :=
    optimized_maximal hsort' (fun item hi => horder item (hperm.mem_iff.mpr hi))
      fun item hi => hbelow item (hperm.mem_iff.mpr hi)
  exact ⟨hmaximal.unique (hmaximal'.perm hperm.symm), hmaximal⟩

/-- Three items: an empty one at the end of a range, and one nested in it. -/
theorem optimized_order_free_nested :
    (optimized sortByStart ⟨[⟨4, 0, ⟨3⟩, ⟨0⟩⟩, ⟨1, 3, ⟨1⟩, ⟨0⟩⟩, ⟨2, 1, ⟨2⟩, ⟨0⟩⟩]⟩).items =
        (optimized sortByStart ⟨[⟨1, 3, ⟨1⟩, ⟨0⟩⟩, ⟨4, 0, ⟨3⟩, ⟨0⟩⟩, ⟨2, 1, ⟨2⟩, ⟨0⟩⟩]⟩).items ∧
      Maximal ⟨0⟩ [⟨4, 0, ⟨3⟩, ⟨0⟩⟩, ⟨1, 3, ⟨1⟩, ⟨0⟩⟩, ⟨2, 1, ⟨2⟩, ⟨0⟩⟩]
        (optimized sortByStart ⟨[⟨4, 0, ⟨3⟩, ⟨0⟩⟩, ⟨1, 3, ⟨1⟩, ⟨0⟩⟩, ⟨2, 1, ⟨2⟩, ⟨0⟩⟩]⟩).items :=
  optimized_order_free sortByStart sortByStart sortByStart_sorts sortByStart_sorts
    _ _ (List.Perm.swap _ _ _) ⟨0⟩
    (by decide) (by decide)

end BatchRequest

end ModbusPp

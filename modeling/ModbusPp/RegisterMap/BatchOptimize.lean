import ModbusPp.RegisterMap.BatchRequest

/-! The range merging of `BatchRequest::optimized`. The loop keeps the exclusive
end of the last range in 16 bits, so a range that ends at the top of the address
space has the end 0: appended to the result it takes no further item in, and
merged into the last range it adds nothing to it. `Swallowed` names the items that
happens to, and the result covers what the other items cover. -/

namespace ModbusPp

namespace RegisterType

def uint16 : RegisterType := ⟨0⟩

end RegisterType

namespace BatchRequest

/-- `last.start_address + last.count`, as stored in an `address_t`. -/
def endAddress (item : BatchItem) : UInt16 := item.startAddress + item.count

/-- The test of the loop: contiguous or overlapping, and of the same byte order. -/
def Merges (last curr : BatchItem) : Prop :=
  curr.startAddress ≤ endAddress last ∧ last.byteOrder = curr.byteOrder

instance (last curr : BatchItem) : Decidable (Merges last curr) :=
  inferInstanceAs (Decidable (_ ∧ _))

/-- `last` after `curr` has been merged into it. -/
def mergeInto (last curr : BatchItem) : BatchItem :=
  { last with
    count := max (endAddress last) (endAddress curr) - last.startAddress
    type := .uint16 }

/-- The loop of `optimized`; the result so far is `done` with `last` at its back. -/
def optimizedLoop (done : List BatchItem) (last : BatchItem) : List BatchItem → List BatchItem
  | [] => done ++ [last]
  | curr :: sorted =>
    if Merges last curr then optimizedLoop done (mergeInto last curr) sorted
    else optimizedLoop (done ++ [last]) curr sorted

/-- `optimized`; `sort` is `std::sort` by start address. -/
def optimized (sort : List BatchItem → List BatchItem) (request : BatchRequest) : BatchRequest :=
  if request.items.length ≤ 1 then request
  else match sort request.items with
    | [] => ⟨[]⟩
    | first :: sorted => ⟨optimizedLoop [] first sorted⟩

/-- A permutation ordered by start address. The order of equal starts is open. -/
structure SortsByStart (sort : List BatchItem → List BatchItem) : Prop where
  perm : ∀ items, (sort items).Perm items
  ordered : ∀ items, (sort items).Pairwise fun a b => a.startAddress ≤ b.startAddress

/-! ### What a request covers -/

/-- The exclusive end of an item, without the cut to 16 bits. -/
def rangeEnd (item : BatchItem) : ℕ := item.startAddress.toNat + item.count.toNat

/-- The register addresses of an item. -/
def range (item : BatchItem) : Set ℕ := Set.Ico item.startAddress.toNat (rangeEnd item)

/-- The item lies in the 16-bit register space. -/
def InSpace (item : BatchItem) : Prop := rangeEnd item ≤ 65536

/-- The item ends with the last register of the space. -/
def AtTop (item : BatchItem) : Prop := rangeEnd item = 65536

instance (item : BatchItem) : Decidable (AtTop item) := inferInstanceAs (Decidable (_ = _))

/-- The addresses covered by the items of byte order `o`. -/
def covered (o : ByteOrder) (items : List BatchItem) : Set ℕ :=
  {a | ∃ item ∈ items, item.byteOrder = o ∧ a ∈ range item}

/-- In the run of items of `curr`'s byte order that ends `prev`, one that does not
end at the top reaches `curr`. -/
def Reached (prev : List BatchItem) (curr : BatchItem) : Prop :=
  ∃ before item between, prev = before ++ item :: between ∧
    (∀ other ∈ item :: between, other.byteOrder = curr.byteOrder) ∧ ¬AtTop item ∧
    curr.startAddress.toNat ≤ rangeEnd item

/-- An item at the top of the space that continues the items before it. -/
def Swallowed (prev : List BatchItem) (curr : BatchItem) : Prop := AtTop curr ∧ Reached prev curr

/-- The addresses covered by the items of byte order `o` that are not swallowed. -/
def coveredKept (o : ByteOrder) (sorted : List BatchItem) : Set ℕ :=
  {a | ∃ prev item rest, sorted = prev ++ item :: rest ∧ ¬Swallowed prev item ∧
    item.byteOrder = o ∧ a ∈ range item}

/-- Whatever a swallowed item of byte order `o` covers, an item of that order that
is not swallowed covers as well. -/
def NothingLost (o : ByteOrder) (sorted : List BatchItem) : Prop :=
  ∀ prev item rest, sorted = prev ++ item :: rest → Swallowed prev item → item.byteOrder = o →
    ∀ a ∈ range item, a ∈ coveredKept o sorted

/-! ### The ends of ranges -/

variable {last curr item : BatchItem} {prev : List BatchItem} {o : ByteOrder}

theorem toNat_endAddress (h : InSpace item) (htop : ¬AtTop item) :
    (endAddress item).toNat = rangeEnd item := by
  rw [InSpace] at h
  rw [AtTop] at htop
  rw [endAddress, UInt16.toNat_add]
  exact Nat.mod_eq_of_lt (by rw [rangeEnd] at h htop; omega)

theorem endAddress_top (h : AtTop item) : (endAddress item).toNat = 0 := by
  rw [endAddress, UInt16.toNat_add]
  rw [AtTop, rangeEnd] at h
  rw [h]

theorem start_pos_of_atTop (h : AtTop item) : 0 < item.startAddress.toNat := by
  have hlt := item.count.toNat_lt
  rw [AtTop, rangeEnd] at h
  omega

theorem start_le_rangeEnd (item : BatchItem) : item.startAddress.toNat ≤ rangeEnd item :=
  Nat.le_add_right _ _

/-- A range at the top takes nothing in from its own start on. -/
theorem merges_iff_rangeEnd (h : InSpace last)
    (hle : last.startAddress.toNat ≤ curr.startAddress.toNat) :
    Merges last curr ↔
      last.byteOrder = curr.byteOrder ∧ ¬AtTop last ∧ curr.startAddress.toNat ≤ rangeEnd last := by
  rw [Merges, UInt16.le_iff_toNat_le]
  by_cases htop : AtTop last
  · have hpos := start_pos_of_atTop htop
    rw [endAddress_top htop]
    constructor
    · rintro ⟨hzero, -⟩
      omega
    · rintro ⟨-, hno, -⟩
      exact absurd htop hno
  · rw [toNat_endAddress h htop]
    exact ⟨fun h => ⟨h.2, htop, h.1⟩, fun h => ⟨h.2.2, h.1⟩⟩

/-- Merging moves the end to the further one, an end at the top counting as zero. -/
theorem rangeEnd_mergeInto (h : InSpace last)
    (hle : last.startAddress.toNat ≤ curr.startAddress.toNat)
    (hcurr : InSpace curr) (hmerges : Merges last curr) :
    rangeEnd (mergeInto last curr) =
      max (rangeEnd last) (if AtTop curr then 0 else rangeEnd curr) := by
  obtain ⟨-, htop, hreach⟩ := (merges_iff_rangeEnd h hle).mp hmerges
  have hlast := toNat_endAddress h htop
  have hcurr' : (endAddress curr).toNat = if AtTop curr then 0 else rangeEnd curr := by
    split_ifs with hc
    · exact endAddress_top hc
    · exact toNat_endAddress hcurr hc
  have hmax : (max (endAddress last) (endAddress curr)).toNat =
      max (rangeEnd last) (if AtTop curr then 0 else rangeEnd curr) := by
    change
      (if endAddress last ≤ endAddress curr then endAddress curr else endAddress last).toNat = _
    rw [← hlast, ← hcurr', max_def]
    simp only [UInt16.le_iff_toNat_le]
    split_ifs <;> rfl
  have hstart := start_le_rangeEnd last
  have hlt := (max (endAddress last) (endAddress curr)).toNat_lt
  rw [← hmax]
  simp only [rangeEnd, mergeInto, UInt16.toNat_sub, Nat.reducePow] at hmax hstart hlt ⊢
  omega

theorem mergeInto_below (h : InSpace last) (hle : last.startAddress.toNat ≤ curr.startAddress.toNat)
    (hcurr : InSpace curr) (hmerges : Merges last curr) :
    rangeEnd (mergeInto last curr) < 65536 := by
  obtain ⟨-, htop, -⟩ := (merges_iff_rangeEnd h hle).mp hmerges
  rw [rangeEnd_mergeInto h hle hcurr hmerges]
  rw [InSpace] at h hcurr
  rw [AtTop] at htop
  split_ifs with hc
  · omega
  · rw [AtTop] at hc
    omega

/-- The merged range takes in what either of the two took in, if the second is not at the top. -/
theorem merges_mergeInto_iff (h : InSpace last)
    (hle : last.startAddress.toNat ≤ curr.startAddress.toNat)
    (hcurr : InSpace curr) (hmerges : Merges last curr) {next : BatchItem}
    (hnext : curr.startAddress.toNat ≤ next.startAddress.toNat) :
    Merges (mergeInto last curr) next ↔ curr.byteOrder = next.byteOrder ∧
      (¬AtTop curr ∧ next.startAddress.toNat ≤ rangeEnd curr ∨ Merges last next) := by
  obtain ⟨horder, htop, -⟩ := (merges_iff_rangeEnd h hle).mp hmerges
  have hbelow := mergeInto_below h hle hcurr hmerges
  have hnotTop : ¬AtTop (mergeInto last curr) := hbelow.ne
  rw [merges_iff_rangeEnd hbelow.le (hle.trans hnext), merges_iff_rangeEnd h (hle.trans hnext),
    rangeEnd_mergeInto h hle hcurr hmerges, ← horder]
  refine and_congr_right fun hsame => ?_
  change last.byteOrder = next.byteOrder at hsame
  by_cases hc : AtTop curr
  · simp [hc, hnotTop, htop, hsame]
  · simp [hc, hnotTop, htop, hsame, or_comm]

/-! ### The items before the current one -/

theorem not_reached_nil (curr : BatchItem) : ¬Reached [] curr := by
  rintro ⟨before, item, between, h, -⟩
  simp at h

theorem reached_snoc : Reached (prev ++ [item]) curr ↔
    item.byteOrder = curr.byteOrder ∧
      (¬AtTop item ∧ curr.startAddress.toNat ≤ rangeEnd item ∨ Reached prev curr) := by
  constructor
  · rintro ⟨before, other, between, heq, horder, htop, hreach⟩
    rcases List.eq_nil_or_concat' between with rfl | ⟨between', x, rfl⟩
    · obtain ⟨-, rfl⟩ := List.append_singleton_inj.mp heq
      exact ⟨horder _ List.mem_cons_self, Or.inl ⟨htop, hreach⟩⟩
    · rw [← List.cons_append, ← List.append_assoc] at heq
      obtain ⟨rfl, rfl⟩ := List.append_singleton_inj.mp heq
      refine ⟨horder _ (by simp), Or.inr ⟨before, other, between', rfl, ?_, htop, hreach⟩⟩
      intro y hy
      exact horder y (by rw [← List.cons_append]; exact List.mem_append_left _ hy)
  · rintro ⟨horder, ⟨htop, hreach⟩ | ⟨before, other, between, rfl, hrun, htop, hreach⟩⟩
    · refine ⟨prev, item, [], rfl, ?_, htop, hreach⟩
      intro y hy
      rw [List.mem_singleton.mp hy, horder]
    · refine ⟨before, other, between ++ [item], by simp, ?_, htop, hreach⟩
      intro y hy
      rw [← List.cons_append, List.mem_append, List.mem_singleton] at hy
      rcases hy with hy | rfl
      · exact hrun y hy
      · exact horder

theorem coveredKept_nil (o : ByteOrder) : coveredKept o [] = ∅ := by
  apply Set.eq_empty_of_forall_notMem
  rintro a ⟨before, item, rest, h, -⟩
  simp at h

theorem mem_coveredKept_snoc {a : ℕ} : a ∈ coveredKept o (prev ++ [item]) ↔
    a ∈ coveredKept o prev ∨ ¬Swallowed prev item ∧ item.byteOrder = o ∧ a ∈ range item := by
  constructor
  · rintro ⟨before, other, rest, heq, hkept, horder, ha⟩
    rcases List.eq_nil_or_concat' rest with rfl | ⟨rest', x, rfl⟩
    · obtain ⟨rfl, rfl⟩ := List.append_singleton_inj.mp heq
      exact Or.inr ⟨hkept, horder, ha⟩
    · rw [← List.cons_append, ← List.append_assoc] at heq
      obtain ⟨rfl, -⟩ := List.append_singleton_inj.mp heq
      exact Or.inl ⟨before, other, rest', rfl, hkept, horder, ha⟩
  · rintro (⟨before, other, rest, rfl, hkept, horder, ha⟩ | ⟨hkept, horder, ha⟩)
    · exact ⟨before, other, rest ++ [item], by simp, hkept, horder, ha⟩
    · exact ⟨prev, item, [], rfl, hkept, horder, ha⟩

/-! ### The loop -/

theorem mem_covered_snoc {items : List BatchItem} {a : ℕ} :
    a ∈ covered o (items ++ [item]) ↔ a ∈ covered o items ∨ item.byteOrder = o ∧
    a ∈ range item := by
  simp only [covered, Set.mem_ofPred_eq, List.mem_append, List.mem_singleton]
  constructor
  · rintro ⟨other, hmem | rfl, horder, ha⟩
    · exact Or.inl ⟨other, hmem, horder, ha⟩
    · exact Or.inr ⟨horder, ha⟩
  · rintro (⟨other, hmem, horder, ha⟩ | ⟨horder, ha⟩)
    · exact ⟨other, Or.inl hmem, horder, ha⟩
    · exact ⟨item, Or.inr rfl, horder, ha⟩

theorem mem_range_mergeInto (h : InSpace last)
    (hle : last.startAddress.toNat ≤ curr.startAddress.toNat)
    (hcurr : InSpace curr) (hmerges : Merges last curr) {a : ℕ} :
    a ∈ range (mergeInto last curr) ↔ a ∈ range last ∨ ¬AtTop curr ∧ a ∈ range curr := by
  obtain ⟨-, -, hreach⟩ := (merges_iff_rangeEnd h hle).mp hmerges
  have hstart : (mergeInto last curr).startAddress = last.startAddress := rfl
  have hend := start_le_rangeEnd curr
  simp only [range, Set.mem_Ico, rangeEnd_mergeInto h hle hcurr hmerges, hstart]
  split_ifs with htop
  · simp only [htop, not_true, false_and, or_false]
    omega
  · simp only [htop, not_false_eq_true, true_and]
    omega

/-- The result after the items `prev`: from the address `low` on, its last range
takes in what `Reached` says, and it covers what is not swallowed. -/
structure Merged (prev done : List BatchItem) (last : BatchItem) (low : ℕ) : Prop where
  start_le : last.startAddress.toNat ≤ low
  inSpace : InSpace last
  merges_iff : ∀ curr, low ≤ curr.startAddress.toNat → (Merges last curr ↔ Reached prev curr)
  covered_eq : ∀ o, covered o (done ++ [last]) = coveredKept o prev

theorem merges_iff_snoc (h : InSpace item)
    (hpushed : ¬(item.byteOrder = curr.byteOrder ∧ Reached prev curr))
    (hle : item.startAddress.toNat ≤ curr.startAddress.toNat) :
    Merges item curr ↔ Reached (prev ++ [item]) curr := by
  rw [merges_iff_rangeEnd h hle, reached_snoc]
  constructor
  · rintro ⟨horder, htop, hreach⟩
    exact ⟨horder, Or.inl ⟨htop, hreach⟩⟩
  · rintro ⟨horder, ⟨htop, hreach⟩ | hold⟩
    · exact ⟨horder, htop, hreach⟩
    · exact absurd ⟨horder, hold⟩ hpushed

theorem merged_first (h : InSpace item) : Merged [item] [] item item.startAddress.toNat where
  start_le := le_rfl
  inSpace := h
  merges_iff curr hle := by
    have hnone : ¬(item.byteOrder = curr.byteOrder ∧ Reached [] curr) :=
      fun hr => not_reached_nil curr hr.2
    exact merges_iff_snoc h hnone hle
  covered_eq o := by
    ext a
    rw [mem_covered_snoc, show [item] = [] ++ [item] from rfl, mem_coveredKept_snoc,
      coveredKept_nil]
    have hkept : ¬Swallowed [] item := fun hs => not_reached_nil _ hs.2
    simp [covered, hkept]

variable {done : List BatchItem} {low : ℕ}

/-- The loop appends the item. -/
theorem Merged.push (h : Merged prev done last low) (hle : low ≤ curr.startAddress.toNat)
    (hcurr : InSpace curr) (hmerges : ¬Merges last curr) : Merged (prev ++ [curr])
    (done ++ [last]) curr curr.startAddress.toNat where
  start_le := le_rfl
  inSpace := hcurr
  merges_iff next hnext := by
    refine merges_iff_snoc hcurr ?_ hnext
    rintro ⟨horder, hreached⟩
    -- what reaches the next item would have taken this one in
    obtain ⟨hord, htop, hreach⟩ :=
      (merges_iff_rangeEnd h.inSpace (h.start_le.trans (hle.trans hnext))).mp
      ((h.merges_iff next (hle.trans hnext)).mpr hreached)
    exact hmerges ((merges_iff_rangeEnd h.inSpace (h.start_le.trans hle)).mpr
      ⟨hord.trans horder.symm, htop, hnext.trans hreach⟩)
  covered_eq o := by
    have hkept : ¬Swallowed prev curr := fun hs => hmerges ((h.merges_iff curr hle).mpr hs.2)
    ext a
    rw [mem_covered_snoc, mem_coveredKept_snoc, h.covered_eq o]
    simp [hkept]

/-- The loop merges the item into the last range. -/
theorem Merged.merge (h : Merged prev done last low) (hle : low ≤ curr.startAddress.toNat)
    (hcurr : InSpace curr) (hmerges : Merges last curr) :
    Merged (prev ++ [curr]) done (mergeInto last curr) curr.startAddress.toNat where
  start_le := h.start_le.trans hle
  inSpace := (mergeInto_below h.inSpace (h.start_le.trans hle) hcurr hmerges).le
  merges_iff next hnext := by
    rw [merges_mergeInto_iff h.inSpace (h.start_le.trans hle) hcurr hmerges hnext, reached_snoc,
      h.merges_iff next (hle.trans hnext)]
  covered_eq o := by
    have hstart := h.start_le.trans hle
    have horder : last.byteOrder = curr.byteOrder := hmerges.2
    have hreached : Reached prev curr := (h.merges_iff curr hle).mp hmerges
    have hkept : ¬Swallowed prev curr ↔ ¬AtTop curr := not_congr (and_iff_left hreached)
    ext a
    rw [mem_coveredKept_snoc, ← h.covered_eq o, mem_covered_snoc, mem_covered_snoc,
      mem_range_mergeInto h.inSpace hstart hcurr hmerges, hkept, ← horder, or_assoc]
    change _ ∨ last.byteOrder = o ∧ _ ↔ _
    rw [and_or_left, and_left_comm]

theorem optimizedLoop_covered {sorted : List BatchItem} (h : Merged prev done last low)
    (hlow : ∀ item ∈ sorted, low ≤ item.startAddress.toNat)
    (hsorted : sorted.Pairwise fun a b => a.startAddress ≤ b.startAddress)
    (hspace : ∀ item ∈ sorted, InSpace item) (o : ByteOrder) :
    covered o (optimizedLoop done last sorted) = coveredKept o (prev ++ sorted) := by
  induction sorted generalizing prev done last low with
  | nil => rw [optimizedLoop, List.append_nil, h.covered_eq]
  | cons curr sorted ih =>
    obtain ⟨hfirst, hrest⟩ := List.pairwise_cons.mp hsorted
    have hcurr := hspace curr List.mem_cons_self
    have hle := hlow curr List.mem_cons_self
    have hspaceRest : ∀ item ∈ sorted, InSpace item :=
      fun item hi => hspace item (List.mem_cons_of_mem _ hi)
    have hlowRest : ∀ item ∈ sorted, curr.startAddress.toNat ≤ item.startAddress.toNat :=
      fun item hi => UInt16.le_iff_toNat_le.mp (hfirst item hi)
    rw [optimizedLoop, List.append_cons prev curr sorted]
    split_ifs with hmerges
    · exact ih (h.merge hle hcurr hmerges) hlowRest hrest hspaceRest
    · exact ih (h.push hle hcurr hmerges) hlowRest hrest hspaceRest

/-! ### The optimised request -/

section optimized

variable {sort : List BatchItem → List BatchItem} {request : BatchRequest}

theorem coveredKept_subset (o : ByteOrder) (sorted : List BatchItem) :
    coveredKept o sorted ⊆ covered o sorted := by
  rintro a ⟨prev, item, rest, rfl, -, horder, ha⟩
  exact ⟨item, by simp, horder, ha⟩

theorem covered_eq_iff (o : ByteOrder) (sorted : List BatchItem) :
    coveredKept o sorted = covered o sorted ↔ NothingLost o sorted := by
  constructor
  · rintro heq prev item rest rfl - horder a ha
    rw [heq]
    exact ⟨item, by simp, horder, ha⟩
  · intro hlost
    apply (coveredKept_subset o sorted).antisymm
    rintro a ⟨item, hmem, horder, ha⟩
    obtain ⟨prev, rest, rfl⟩ := List.append_of_mem hmem
    by_cases hs : Swallowed prev item
    · exact hlost prev item rest rfl hs horder a ha
    · exact ⟨prev, item, rest, rfl, hs, horder, ha⟩

theorem covered_perm {items items' : List BatchItem} (h : items.Perm items') (o : ByteOrder) :
    covered o items = covered o items' := by
  ext a
  simp only [covered, Set.mem_ofPred_eq, h.mem_iff]

/-- The loop runs over the sorted items, also where a short request is returned as it is. -/
theorem optimized_items (hsort : SortsByStart sort) (request : BatchRequest) :
    sort request.items = [] ∧ (optimized sort request).items = [] ∨
      ∃ first sorted, sort request.items = first :: sorted ∧
        (optimized sort request).items = optimizedLoop [] first sorted := by
  have hperm := hsort.perm request.items
  rw [optimized]
  split_ifs with hshort
  · rcases hitems : request.items with _ | ⟨item, _ | ⟨item', items⟩⟩
    · rw [hitems, List.perm_nil] at hperm
      exact .inl ⟨hperm, rfl⟩
    · rw [hitems, List.perm_singleton] at hperm
      exact .inr ⟨item, [], hperm, rfl⟩
    · rw [hitems] at hshort
      simp at hshort
  · rcases hsorted : sort request.items with _ | ⟨first, sorted⟩
    · exact .inl ⟨rfl, rfl⟩
    · exact .inr ⟨first, sorted, rfl, rfl⟩

theorem optimized_covered (hsort : SortsByStart sort)
    (hspace : ∀ item ∈ request.items, InSpace item) (o : ByteOrder) :
    covered o (optimized sort request).items = coveredKept o (sort request.items) := by
  have hperm := hsort.perm request.items
  obtain ⟨hnil, hitems⟩ | ⟨first, sorted, hcons, hitems⟩ := optimized_items hsort request
  · rw [hitems, hnil, coveredKept_nil]
    simp [covered]
  · have hmem (item : BatchItem) (hi : item ∈ first :: sorted) : InSpace item :=
      hspace item (hperm.mem_iff.mp (hcons ▸ hi))
    have hordered := hcons ▸ hsort.ordered request.items
    obtain ⟨hfirst, hrest⟩ := List.pairwise_cons.mp hordered
    rw [hitems, hcons]
    exact optimizedLoop_covered (merged_first (hmem first List.mem_cons_self))
      (fun item hi => UInt16.le_iff_toNat_le.mp (hfirst item hi)) hrest
      (fun item hi => hmem item (List.mem_cons_of_mem _ hi)) o

/-- Optimising keeps the covered addresses of a byte order exactly when every
swallowed item of that order is covered by items that are not. -/
theorem optimized_covers_iff (hsort : SortsByStart sort)
    (hspace : ∀ item ∈ request.items, InSpace item) (o : ByteOrder) :
    covered o (optimized sort request).items = covered o request.items ↔
      NothingLost o (sort request.items) := by
  rw [optimized_covered hsort hspace, ← covered_perm (hsort.perm request.items), covered_eq_iff]

/-- A stable sort by start address. -/
def sortByStart (items : List BatchItem) : List BatchItem :=
  items.insertionSort fun a b => a.startAddress ≤ b.startAddress

theorem sortByStart_sorts : SortsByStart sortByStart where
  perm items := items.perm_insertionSort _
  ordered items := by
    have htotal : Std.Total fun a b : BatchItem => a.startAddress ≤ b.startAddress :=
      ⟨fun a b => UInt16.le_total a.startAddress b.startAddress⟩
    have htrans : IsTrans BatchItem fun a b => a.startAddress ≤ b.startAddress :=
      ⟨fun _ _ _ => UInt16.le_trans⟩
    exact List.pairwise_insertionSort _ items

theorem optimized_covers_overlapping :
    covered ⟨0⟩ (optimized sortByStart ⟨[⟨12, 10, .uint16, ⟨0⟩⟩, ⟨10, 5, .uint16, ⟨0⟩⟩]⟩).items =
      covered ⟨0⟩ [⟨12, 10, .uint16, ⟨0⟩⟩, ⟨10, 5, .uint16, ⟨0⟩⟩] := by
  have hspace : ∀ item ∈ (BatchRequest.mk [⟨12, 10, .uint16, ⟨0⟩⟩, ⟨10, 5, .uint16, ⟨0⟩⟩]).items,
      InSpace item := by
    simp [InSpace, rangeEnd]
  refine (optimized_covers_iff sortByStart_sorts hspace ⟨0⟩).mpr ?_
  rintro prev item rest heq ⟨htop, -⟩
  have hmem : item ∈ [⟨12, 10, .uint16, ⟨0⟩⟩, (⟨10, 5, .uint16, ⟨0⟩⟩ : BatchItem)] := by
    rw [← (sortByStart_sorts.perm _).mem_iff, heq]
    simp
  have hlow : ∀ item ∈ [⟨12, 10, .uint16, ⟨0⟩⟩, (⟨10, 5, .uint16, ⟨0⟩⟩ : BatchItem)],
    ¬AtTop item := by decide
  exact absurd htop (hlow item hmem)

/-- Two overlapping items at the top of the space: register 65535 is dropped. -/
theorem optimized_drops_top :
    ¬∀ (sort : List BatchItem → List BatchItem) (request : BatchRequest), SortsByStart sort →
      (∀ item ∈ request.items, InSpace item) →
      ∀ o, covered o (optimized sort request).items = covered o request.items := by
  intro hall
  have heq := hall sortByStart ⟨[⟨65530, 5, .uint16, ⟨0⟩⟩, ⟨65534, 2, .uint16, ⟨0⟩⟩]⟩
    sortByStart_sorts
    (by simp [InSpace, rangeEnd]) ⟨0⟩
  have hresult : optimized sortByStart ⟨[⟨65530, 5, .uint16, ⟨0⟩⟩, ⟨65534, 2, .uint16, ⟨0⟩⟩]⟩ =
      ⟨[⟨65530, 5, .uint16, ⟨0⟩⟩]⟩ := by decide
  have hwas : 65535 ∈ covered ⟨0⟩ [⟨65530, 5, .uint16, ⟨0⟩⟩, ⟨65534, 2, .uint16, ⟨0⟩⟩] := by
    simp [covered, range, rangeEnd]
  rw [← heq, hresult] at hwas
  simp [covered, range, rangeEnd] at hwas

end optimized

end BatchRequest

end ModbusPp

import ModbusPp.Foundation.Memory
import ModbusPp.RegisterMap.BatchCodec
import ModbusPp.RegisterMap.BatchPermutation

/-! What the optimised request is worth to its caller. Every item of the request lies in an
item of the result, so the registers it asks for are a slice of those that come back for
the result; and the result is no larger than the request in any count of items and
registers. -/

namespace ModbusPp

open Foundation

namespace BatchRequest

/-- The items at `a` each and their registers at `b` each. -/
def weight (a b : ℕ) (items : List BatchItem) : ℕ :=
  (items.map fun item => a + b * item.count.toNat).sum

/-- `total_registers`, without the cut to 16 bits. -/
def registerCount (items : List BatchItem) : ℕ := weight 0 1 items

/-- `total_registers`: the sum is kept in a `quantity_t`. -/
def totalRegisters (request : BatchRequest) : UInt16 :=
  request.items.foldl (fun total item => total + item.count) 0

/-- `result` has every item of `items` in one of its own, and is no larger. -/
structure Condenses (items result : List BatchItem) : Prop where
  held : ∀ item ∈ items, ∃ r ∈ result, r.byteOrder = item.byteOrder ∧ Within r item
  weight_le : ∀ a b, weight a b result ≤ weight a b items

variable {items items' result prev done : List BatchItem} {last curr r item : BatchItem} {a b : ℕ}

@[simp] theorem weight_nil (a b : ℕ) : weight a b [] = 0 := rfl

theorem weight_append (a b : ℕ) (items items' : List BatchItem) :
    weight a b (items ++ items') = weight a b items + weight a b items' := by
  simp only [weight, List.map_append, List.sum_append]

theorem weight_singleton (a b : ℕ) (item : BatchItem) :
    weight a b [item] = a + b * item.count.toNat := by
  simp [weight]

theorem weight_perm (h : items.Perm items') : weight a b items = weight a b items' :=
  (h.map _).sum_eq

theorem weight_ones (items : List BatchItem) : weight 1 0 items = items.length := by
  simp [weight]

theorem toNat_totalRegisters (request : BatchRequest) :
    request.totalRegisters.toNat = registerCount request.items % 65536 := by
  have hfrom (total : UInt16) (items : List BatchItem) :
      (items.foldl (fun total item => total + item.count) total).toNat =
        (total.toNat + registerCount items) % 65536 := by
    induction items generalizing total with
    | nil => simp [registerCount]
    | cons item items ih =>
      rw [List.foldl_cons, ih, UInt16.toNat_add]
      simp only [registerCount, weight, List.map_cons, List.sum_cons]
      omega
  rw [totalRegisters, hfrom, UInt16.toNat_zero, Nat.zero_add]

theorem Within.trans (h : Within r last) (h' : Within last item) : Within r item :=
  ⟨h.1.trans h'.1, h'.2.trans h.2⟩

theorem Condenses.perm (h : Condenses items result) (hperm : items.Perm items') :
    Condenses items' result where
  held item hitem := h.held item (hperm.mem_iff.mpr hitem)
  weight_le a b := weight_perm hperm ▸ h.weight_le a b

/-! ### The loop -/

/-- Below the top a merged range holds both of its parts and has no more registers than they. -/
theorem merge_holds (hlast : Below last) (hcurr : Below curr)
    (hle : last.startAddress.toNat ≤ curr.startAddress.toNat)
    (hmerges : Merges last curr) : Within (mergeInto last curr) last ∧
    Within (mergeInto last curr) curr ∧
      (mergeInto last curr).count.toNat ≤ last.count.toNat + curr.count.toNat := by
  obtain ⟨-, -, hreach⟩ := (merges_iff_rangeEnd hlast.inSpace hle).mp hmerges
  have hend := rangeEnd_mergeInto hlast.inSpace hle hcurr.inSpace hmerges
  have hstart : (mergeInto last curr).startAddress = last.startAddress := rfl
  rw [if_neg hcurr.not_atTop] at hend
  refine ⟨⟨le_rfl, hend ▸ le_max_left _ _⟩, ⟨hle, hend ▸ le_max_right _ _⟩, ?_⟩
  simp only [rangeEnd, hstart] at hend hreach
  omega

theorem condenses_first (item : BatchItem) : Condenses [item] ([] ++ [item]) where
  held other hother := ⟨other, hother, rfl, within_self other⟩
  weight_le _ _ := le_rfl

/-- The loop appends the item. -/
theorem Condenses.push (h : Condenses prev result) (curr : BatchItem) :
    Condenses (prev ++ [curr]) (result ++ [curr]) where
  held item hitem := by
    rcases List.mem_append.mp hitem with hold | hnew
    · obtain ⟨r, hr, hwithin⟩ := h.held item hold
      exact ⟨r, List.mem_append_left _ hr, hwithin⟩
    · exact ⟨item, List.mem_append_right _ hnew, rfl, within_self item⟩
  weight_le a b := by
    rw [weight_append, weight_append]
    exact Nat.add_le_add_right (h.weight_le a b) _

/-- The loop merges the item into the last range. -/
theorem Condenses.merge (h : Condenses prev (done ++ [last])) (hlast : Below last)
    (hcurr : Below curr) (hle : last.startAddress.toNat ≤ curr.startAddress.toNat)
    (hmerges : Merges last curr) :
    Condenses (prev ++ [curr]) (done ++ [mergeInto last curr]) where
  held item hitem := by
    obtain ⟨hkeeps, htakes, -⟩ := merge_holds hlast hcurr hle hmerges
    have hmerged : mergeInto last curr ∈ done ++ [mergeInto last curr] := by simp
    rcases List.mem_append.mp hitem with hold | hnew
    · obtain ⟨r, hr, horder, hwithin⟩ := h.held item hold
      rcases List.mem_append.mp hr with hr | hr
      · exact ⟨r, List.mem_append_left _ hr, horder, hwithin⟩
      · obtain rfl := List.mem_singleton.mp hr
        exact ⟨_, hmerged, horder, hkeeps.trans hwithin⟩
    · obtain rfl := List.mem_singleton.mp hnew
      exact ⟨_, hmerged, hmerges.2, htakes⟩
  weight_le a b := by
    obtain ⟨-, -, hcount⟩ := merge_holds hlast hcurr hle hmerges
    have hold := h.weight_le a b
    have hmore := Nat.mul_le_mul_left b hcount
    rw [weight_append, weight_singleton] at hold ⊢
    rw [weight_append, weight_singleton]
    rw [Nat.mul_add] at hmore
    omega

theorem optimizedLoop_condenses {sorted : List BatchItem}
    (h : Condenses prev (done ++ [last])) (hlast : Below last)
    (hle : ∀ item ∈ sorted, last.startAddress.toNat ≤ item.startAddress.toNat)
    (hsorted : sorted.Pairwise fun a b => a.startAddress ≤ b.startAddress)
    (hbelow : ∀ item ∈ sorted, Below item) :
    Condenses (prev ++ sorted) (optimizedLoop done last sorted) := by
  induction sorted generalizing prev done last with
  | nil => rwa [optimizedLoop, List.append_nil]
  | cons curr sorted ih =>
    obtain ⟨hfirst, hrest⟩ := List.pairwise_cons.mp hsorted
    obtain ⟨hcurr, hbelowRest⟩ := List.forall_mem_cons.mp hbelow
    obtain ⟨hstart, hleRest⟩ := List.forall_mem_cons.mp hle
    rw [optimizedLoop, List.append_cons prev curr sorted]
    split_ifs with hmerges
    · have hmerged := mergeInto_below hlast.inSpace hstart hcurr.inSpace hmerges
      exact ih (h.merge hlast hcurr hstart hmerges) (Nat.le_of_lt_succ hmerged)
        hleRest hrest hbelowRest
    · exact ih (h.push curr) hcurr (fun item hi => UInt16.le_iff_toNat_le.mp (hfirst item hi))
        hrest hbelowRest

/-- Optimising condenses the request. -/
theorem optimized_condenses {sort : List BatchItem → List BatchItem}
    (hsort : SortsByStart sort) {request : BatchRequest}
    (hbelow : ∀ item ∈ request.items, Below item) :
    Condenses request.items (optimized sort request).items := by
  have hperm := hsort.perm request.items
  refine Condenses.perm ?_ hperm
  obtain ⟨hnil, hitems⟩ | ⟨first, sorted, hcons, hitems⟩ := optimized_items hsort request
  · rw [hitems, hnil]
    exact ⟨fun item hitem => absurd hitem List.not_mem_nil, fun _ _ => le_rfl⟩
  · have hmem (item : BatchItem) (hi : item ∈ first :: sorted) : Below item :=
      hbelow item (hperm.mem_iff.mp (hcons ▸ hi))
    obtain ⟨hfirst, hrest⟩ := List.pairwise_cons.mp (hcons ▸ hsort.ordered request.items)
    rw [hitems, hcons]
    exact optimizedLoop_condenses (condenses_first first) (hmem first List.mem_cons_self)
      (fun item hi => UInt16.le_iff_toNat_le.mp (hfirst item hi)) hrest
      fun item hi => hmem item (List.mem_cons_of_mem _ hi)

theorem Condenses.length_le (h : Condenses items result) : result.length ≤ items.length := by
  rw [← weight_ones, ← weight_ones]
  exact h.weight_le 1 0

end BatchRequest

namespace BatchResponse

open BatchRequest

/-- The answer to a request from a memory of registers. -/
def answerFrom (mem : ℕ → UInt16) (request : BatchRequest) : BatchResponse :=
  ⟨request.items.map fun item =>
    ⟨item.startAddress, window mem item.startAddress.toNat item.count.toNat, .none⟩⟩

/-- `all_succeeded`. -/
def allSucceeded (response : BatchResponse) : Bool :=
  response.results.all fun item => !item.status.isError

/-- The registers of `item` are those of `r`, from the address of `item` on. -/
def SliceOf (item r : ItemResult) : Prop :=
  r.address ≤ item.address ∧
    (r.registers.drop (item.address.toNat - r.address.toNat)).take item.registers.length =
      item.registers

instance (item r : ItemResult) : Decidable (SliceOf item r) := inferInstanceAs (Decidable (_ ∧ _))

variable {mem : ℕ → UInt16} {request : BatchRequest} {items result : List BatchItem}

theorem allSucceeded_answerFrom (mem : ℕ → UInt16) (request : BatchRequest) :
    (answerFrom mem request).allSucceeded = true := by
  rw [allSucceeded, answerFrom, List.all_map]
  exact List.all_eq_true.mpr fun _ _ => rfl

/-- What a request is answered with are slices of the answers to what it was condensed to. -/
theorem answerFrom_slices (h : Condenses items result) (mem : ℕ → UInt16) :
    ∀ item ∈ (answerFrom mem ⟨items⟩).results, ∃ r ∈ (answerFrom mem ⟨result⟩).results,
      SliceOf item r := by
  intro item hitem
  obtain ⟨asked, hasked, rfl⟩ := List.mem_map.mp hitem
  obtain ⟨r, hr, -, hstart, hend⟩ := h.held asked hasked
  refine ⟨_, List.mem_map_of_mem hr, UInt16.le_iff_toNat_le.mpr hstart, ?_⟩
  rw [length_window]
  exact window_slice hstart hend

/-- The bytes of the answer. -/
theorem length_serialize_answerFrom (mem : ℕ → UInt16) (items : List BatchItem) :
    (answerFrom mem ⟨items⟩).serialize.length = 2 + weight 5 2 items := by
  have hitems : ((answerFrom mem ⟨items⟩).results.flatMap itemBytes).length = weight 5 2 items := by
    rw [List.length_flatMap, answerFrom, List.map_map, weight]
    congr 1
    refine List.map_congr_left fun item _ => ?_
    rw [Function.comp_apply, length_itemBytes, length_window]
  rw [serialize, List.length_append, hitems]
  rfl

theorem encodable_answerFrom (mem : ℕ → UInt16) (hlen : items.length ≤ 65535) :
    Encodable (answerFrom mem ⟨items⟩) where
  results := by rwa [answerFrom, List.length_map]
  registers item hitem := by
    obtain ⟨asked, -, rfl⟩ := List.mem_map.mp hitem
    rw [length_window]
    exact Nat.le_of_lt_succ asked.count.toNat_lt
  status item hitem := by
    obtain ⟨asked, -, rfl⟩ := List.mem_map.mp hitem
    exact .inl rfl

theorem plain_answerFrom (mem : ℕ → UInt16) (items : List BatchItem) :
    (answerFrom mem ⟨items⟩).plain = answerFrom mem ⟨items⟩ :=
  plain_eq_self fun item hitem _ => by
    obtain ⟨asked, -, rfl⟩ := List.mem_map.mp hitem
    rfl

end BatchResponse

end ModbusPp

import ModbusPp.Core.PduGrammar
import ModbusPp.RegisterMap.BatchRequest

/-! Batch requests and responses on the wire, there and back. Both formats are a count and
a list of items, each read by a chain of readers. Of a request all is checked beforehand,
since its items have one size; of a response every item is checked in its turn. -/

namespace ModbusPp

open Foundation Foundation.Reader PDU

/-- A reader that runs dry is a truncated batch; trailing bytes are ignored. -/
def batchVerdict {α : Type} : Option (α × List UInt8) → Result α
  | some (a, _) => .value a
  | none => .fail .deserializationFailed

theorem batchVerdict_eq_value {α : Type} {o : Option (α × List UInt8)} {a : α} :
    batchVerdict o = .value a ↔ ∃ rest, o = some (a, rest) := by
  rcases o with _ | ⟨b, rest⟩
  · simp [batchVerdict, Result.fail]
  · simp [batchVerdict]

/-- The count at the front of a batch, 0 if it is not there. -/
def itemCount (d : List UInt8) : ℕ := (word (d.getD 0 0) (d.getD 1 0)).toNat

variable {data : Span UInt8} {xs : List UInt8}

theorem toNat_ofNat_length {α : Type} {l : List α} (h : l.length ≤ 65535) :
    (UInt16.ofNat l.length).toNat = l.length :=
  toNat_ofNat_word (Nat.lt_succ_of_le h)

namespace BatchRequest

/-! ### Requests -/

def itemReader : Reader UInt8 BatchItem := do
  let startAddress ← wordField
  let count ← wordField
  let type ← next
  let byteOrder ← next
  pure ⟨startAddress, count, ⟨type⟩, ⟨byteOrder⟩⟩

def grammar : Reader UInt8 BatchRequest := do
  let itemCount ← wordField
  let items ← times itemReader itemCount.toNat
  pure ⟨items⟩

theorem yields_itemReader (item : BatchItem) : Yields itemReader (itemBytes item) item :=
  (yields_wordField item.startAddress).bind ((yields_wordField item.count).bind
    ((yields_next item.type.byte).bind ((yields_next item.byteOrder.byte).bind (Yields.pure item))))

theorem prints_itemReader : Prints itemReader itemBytes := by
  intro xs item rest h
  obtain ⟨startAddress, ys, hstart, h⟩ := run_bind_some.mp h
  obtain ⟨count, zs, hcount, h⟩ := run_bind_some.mp h
  obtain ⟨type, us, htype, h⟩ := run_bind_some.mp h
  obtain ⟨byteOrder, vs, horder, h⟩ := run_bind_some.mp h
  cases h
  rw [prints_wordField _ _ _ hstart, prints_wordField _ _ _ hcount, prints_next _ _ _ htype,
    prints_next _ _ _ horder]
  rfl

theorem fixed_itemReader : Fixed itemReader 6 :=
  fixed_wordField.bind fun _ => fixed_wordField.bind fun _ => fixed_next.bind fun _ =>
    fixed_next.bind fun _ =>
    Fixed.pure _

theorem run_itemReader_drop {i : ℕ} (h : i + 5 < xs.length) :
    itemReader.run (xs.drop i) =
      some (⟨word xs[i] xs[i + 1], word xs[i + 2] xs[i + 3], ⟨xs[i + 4]⟩, ⟨xs[i + 5]⟩⟩,
        xs.drop (i + 6)) := by
  rw [itemReader]
  simp only [StateT.run_bind, run_wordField_drop (show i + 1 < xs.length by omega),
    run_wordField_drop (show i + 2 + 1 < xs.length by omega),
    run_next_drop (show i + 4 < xs.length by omega),
    run_next_drop h, Option.bind_eq_bind, Option.bind_some]
  rfl

theorem deserializeItems_eq (h : data.Views xs) {n offset : ℕ} (hle : offset + 6 * n ≤ xs.length) :
    ∃ items rest, deserializeItems data n offset = .ok items ∧
      (times itemReader n).run (xs.drop offset) = some (items, rest) := by
  induction n generalizing offset with
  | zero => exact ⟨[], _, rfl, rfl⟩
  | succ n ih =>
    have hread (k : ℕ) (hk : k < 6) : data.read (offset + k) = .ok xs[offset + k] :=
      h.read (List.getElem?_eq_getElem (by omega))
    obtain ⟨items, rest, hitems, hrun⟩ := ih (show offset + 6 + 6 * n ≤ xs.length by omega)
    have hfirst := run_itemReader_drop (show offset + 5 < xs.length by omega)
    refine ⟨⟨word xs[offset] xs[offset + 1], word xs[offset + 2] xs[offset + 3], ⟨xs[offset + 4]⟩,
      ⟨xs[offset + 5]⟩⟩ :: items, rest, ?_, ?_⟩
    · simp only [deserializeItems, hread 1 (by omega), hread 2 (by omega), hread 3 (by omega),
        hread 4 (by omega), hread 5 (by omega), show data.read offset =
          .ok xs[offset] from hread 0 (by omega), hitems,
        ok_bind, pure_eq_ok]
    · exact run_bind_some.mpr ⟨_, _, hfirst, run_bind_some.mpr ⟨_, _, hrun, rfl⟩⟩

/-- On a view of `xs` the decoder stays inside it and computes the grammar's verdict. -/
theorem deserialize_eq (h : data.Views xs) :
    deserialize data = .ok (batchVerdict (grammar.run xs)) := by
  rcases Nat.lt_or_ge xs.length 2 with hlen | hlen
  · rw [deserialize, h.size_eq, if_pos hlen, grammar, StateT.run_bind, (fixed_wordField xs).2 hlen]
    rfl
  have hcount : wordField.run xs = some (word xs[0] xs[1], xs.drop 2) :=
    run_wordField_drop (i := 0) (by omega)
  have r₀ : data.read 0 = .ok xs[0] := h.read (List.getElem?_eq_getElem (by omega))
  have r₁ : data.read 1 = .ok xs[1] := h.read (List.getElem?_eq_getElem (by omega))
  simp only [deserialize, h.size_eq, Nat.not_lt.mpr hlen, if_false, r₀, r₁, ok_bind]
  generalize word xs[0] xs[1] = n at hcount ⊢
  rw [grammar, StateT.run_bind, hcount, Option.bind_eq_bind, Option.bind_some, StateT.run_bind]
  rcases Nat.lt_or_ge xs.length (2 + n.toNat * 6) with hshort | hlong
  · have hdry :=
      (fixed_times fixed_itemReader n.toNat (xs.drop 2)).2 (by rw [List.length_drop]; omega)
    rw [if_pos hshort, hdry]
    rfl
  · obtain ⟨items, rest, hitems, hrun⟩ :=
      deserializeItems_eq h (show 2 + 6 * n.toNat ≤ xs.length by omega)
    rw [if_neg (Nat.not_lt.mpr hlong), hitems, hrun]
    rfl

theorem deserialize_ofList (d : List UInt8) :
    deserialize (.ofList d) = .ok (batchVerdict (grammar.run d)) :=
  deserialize_eq (Span.views_ofList d)

theorem yields_grammar (request : BatchRequest) (hlen : request.items.length ≤ 65535) :
    Yields grammar request.serialize request := by
  have hitems : Yields (times itemReader request.items.length)
      (request.items.flatMap itemBytes) (request.items.map id) :=
    yields_times fun item _ => yields_itemReader item
  rw [List.map_id, ← toNat_ofNat_length hlen] at hitems
  have h := (yields_wordField (UInt16.ofNat request.items.length)).bind
    (f := fun itemCount => do
      let items ← times itemReader itemCount.toNat
      pure (⟨items⟩ : BatchRequest))
    (hitems.bind (Yields.pure request))
  rwa [List.append_nil] at h

/-- What the grammar takes is the request it returns, which has as many items as the count
says. -/
theorem grammar_run {request : BatchRequest} {rest : List UInt8}
    (h : grammar.run xs = some (request, rest)) :
    xs = request.serialize ++ rest ∧ request.items.length = itemCount xs := by
  obtain ⟨n, ys, hcount, h⟩ := run_bind_some.mp h
  obtain ⟨items, zs, hitems, h⟩ := run_bind_some.mp h
  cases h
  obtain ⟨hlen, hys⟩ := prints_times prints_itemReader n.toNat hitems
  have hxs := prints_wordField _ _ _ hcount
  constructor
  · rw [hxs, hys, serialize, hlen, UInt16.ofNat_toNat, List.append_assoc]
  · rw [hxs, hlen]
    simp [itemCount]

theorem length_serialize (request : BatchRequest) :
    request.serialize.length = 2 + 6 * request.items.length := by
  have hitems (items : List BatchItem) : (items.flatMap itemBytes).length = 6 * items.length := by
    induction items with
    | nil => rfl
    | cons item items ih =>
      rw [List.flatMap_cons, List.length_append, ih, List.length_cons, Nat.mul_succ, Nat.add_comm]
      rfl
  rw [serialize, List.length_append, hitems]
  rfl

theorem grammar_isSome (d : List UInt8) :
    (grammar.run d).isSome ↔ 2 ≤ d.length ∧ 2 + 6 * itemCount d ≤ d.length := by
  rcases Nat.lt_or_ge d.length 2 with hlen | hlen
  · rw [grammar, StateT.run_bind, (fixed_wordField d).2 hlen]
    exact iff_of_false (by simp) fun h => absurd h.1 (Nat.not_le.mpr hlen)
  match d, hlen with
  | hi :: lo :: d, _ =>
    have hcount : wordField.run (hi :: lo :: d) = some (word hi lo, d) := rfl
    have hbody := ((fixed_times fixed_itemReader (word hi lo).toNat).bind
      fun items => Fixed.pure (⟨items⟩ : BatchRequest)).run_isSome d
    rw [grammar, StateT.run_bind, hcount, Option.bind_eq_bind, Option.bind_some, hbody]
    simp only [itemCount, List.getD_cons_zero, List.getD_cons_succ, List.length_cons]
    omega

/-- A request of up to 65535 items comes back from its bytes; and a byte string is accepted
exactly if it has the items that its count announces, is never read beyond its end, and
begins with the bytes of what it is decoded to. -/
theorem request_codec_exact :
    (∀ request : BatchRequest, request.items.length ≤ 65535 →
      deserialize (.ofList request.serialize) = .ok (.value request)) ∧
    ∀ d : List UInt8, ∃ r, deserialize (.ofList d) = .ok r ∧
      (r.hasValue = true ↔ 2 ≤ d.length ∧ 2 + 6 * itemCount d ≤ d.length) ∧
      ∀ request, r = .value request → request.serialize = d.take (2 + 6 * itemCount d) := by
  constructor
  · intro request hlen
    have hrun := yields_grammar request hlen []
    rw [List.append_nil] at hrun
    rw [deserialize_ofList, hrun]
    rfl
  · intro d
    refine ⟨_, deserialize_ofList d, ?_, ?_⟩
    · rw [← grammar_isSome]
      cases grammar.run d <;> rfl
    · intro request h
      obtain ⟨rest, hrun⟩ := batchVerdict_eq_value.mp h
      obtain ⟨hd, hlen⟩ := grammar_run hrun
      rw [← hlen, ← length_serialize, hd, List.take_left]

end BatchRequest

namespace BatchResponse

/-! ### Responses -/

def itemReader : Reader UInt8 ItemResult := do
  let address ← wordField
  let status ← next
  let regCount ← wordField
  let registers ← times wordField regCount.toNat
  pure ⟨address, registers, statusOf status⟩

def grammar : Reader UInt8 BatchResponse := do
  let itemCount ← wordField
  let results ← times itemReader itemCount.toNat
  pure ⟨results⟩

/-- A success, or an error code that has a byte of its own on the wire. -/
def StatusFits (status : StdErrorCode) : Prop :=
  status.isError = false ∨ ∃ e : ErrorCode, 1 ≤ e.value ∧ e.value ≤ 255 ∧ status = makeErrorCode e

/-- The counts of a response, and its statuses, fit their fields. -/
structure Encodable (response : BatchResponse) : Prop where
  results : response.results.length ≤ 65535
  registers : ∀ item ∈ response.results, item.registers.length ≤ 65535
  status : ∀ item ∈ response.results, StatusFits item.status

/-- The wire does not know the category of a success. -/
def plainStatus (status : StdErrorCode) : StdErrorCode := if status.isError then status else .none

def plain (response : BatchResponse) : BatchResponse :=
  ⟨response.results.map fun item => { item with status := plainStatus item.status }⟩

theorem plainStatus_value (status : StdErrorCode) : (plainStatus status).value = status.value := by
  unfold plainStatus
  split_ifs with h
  · rfl
  · simp only [StdErrorCode.isError, bne_iff_ne, ne_eq, not_not] at h
    exact h.symm

/-- Nothing is lost of a response whose successes are the default code. -/
theorem plain_eq_self {response : BatchResponse}
    (h : ∀ item ∈ response.results, item.status.isError = false → item.status = .none) :
    response.plain = response := by
  have hitem :
      ∀ item ∈ response.results, { item with status := plainStatus item.status } = item := by
    intro item hitem
    cases herror : item.status.isError with
    | true => rw [plainStatus, if_pos herror]
    | false => rw [plainStatus, herror, if_neg (by decide), ← h item hitem herror]
  rw [plain, List.map_congr_left hitem, List.map_id']

theorem toNat_ofInt {v : ℤ} (hpos : 0 ≤ v) (hlt : v < 256) : ((UInt8.ofInt v).toNat : ℤ) = v := by
  have hbyte : (UInt8.ofInt v).toNat = (v % 256).toNat % 256 := UInt8.toNat_ofNat'
  omega

theorem statusOf_ofInt {status : StdErrorCode} (h : StatusFits status) :
    statusOf (UInt8.ofInt status.value) = plainStatus status := by
  rcases h with hok | ⟨e, hpos, hle, rfl⟩
  · rw [← plainStatus_value, plainStatus, hok]
    rfl
  · have hvalue := toNat_ofInt (hpos.trans' Int.one_nonneg) (Int.lt_add_one_of_le hle)
    have hne : UInt8.ofInt e.value ≠ 0 := by
      intro hzero
      rw [hzero, UInt8.toNat_zero] at hvalue
      omega
    have herror : (makeErrorCode e).isError = true :=
      bne_iff_ne.mpr (by rw [makeErrorCode_value]; omega)
    rw [makeErrorCode_value, statusOf, if_neg hne, hvalue, plainStatus, if_pos herror]

theorem ofInt_statusOf (b : UInt8) : UInt8.ofInt (statusOf b).value = b := by
  unfold statusOf
  split_ifs with h
  · rw [h]
    rfl
  · have hlt := b.toNat_lt
    have hvalue : ((UInt8.ofInt (b.toNat : ℤ)).toNat : ℤ) = b.toNat :=
      toNat_ofInt (by omega) (by omega)
    exact UInt8.toNat_inj.mp (by exact_mod_cast hvalue)

theorem registerBytes_eq (regs : List UInt16) :
    registerBytes regs = regs.flatMap fun x => [hiByte x, loByte x] := rfl

theorem yields_itemReader {item : ItemResult} (hlen : item.registers.length ≤ 65535)
    (hstatus : StatusFits item.status) :
    Yields itemReader (itemBytes item) { item with status := plainStatus item.status } := by
  have hregs : Yields (times wordField item.registers.length)
    (item.registers.flatMap fun x => [hiByte x, loByte x])
      (item.registers.map id) := yields_times fun x _ => yields_wordField x
  rw [List.map_id, ← toNat_ofNat_length hlen] at hregs
  have hitem := (yields_wordField item.address).bind
    (f := fun address => do
      let status ← next
      let regCount ← wordField
      let registers ← times wordField regCount.toNat
      pure (⟨address, registers, statusOf status⟩ : ItemResult))
    ((yields_next (UInt8.ofInt item.status.value)).bind
      ((yields_wordField (UInt16.ofNat item.registers.length)).bind (hregs.bind (Yields.pure _))))
  rw [statusOf_ofInt hstatus, List.append_nil] at hitem
  exact hitem

theorem local_itemReader : Local itemReader :=
  local_wordField.bind fun _ => local_next.bind fun _ => local_wordField.bind fun _ =>
    (local_times local_wordField _).bind fun _ => Local.pure _

theorem itemReader_run {item : ItemResult} {rest : List UInt8}
    (h : itemReader.run xs = some (item, rest)) :
    xs = itemBytes item ++ rest ∧ item.registers.length ≤ 65535 := by
  obtain ⟨address, ys, haddress, h⟩ := run_bind_some.mp h
  obtain ⟨status, zs, hstatus, h⟩ := run_bind_some.mp h
  obtain ⟨regCount, us, hcount, h⟩ := run_bind_some.mp h
  obtain ⟨registers, vs, hregs, h⟩ := run_bind_some.mp h
  cases h
  obtain ⟨hlen, hus⟩ := prints_times prints_wordField regCount.toNat hregs
  refine ⟨?_, hlen ▸ Nat.le_of_lt_succ regCount.toNat_lt⟩
  rw [prints_wordField _ _ _ haddress, prints_next _ _ _ hstatus, prints_wordField _ _ _ hcount,
    hus, itemBytes, hlen, UInt16.ofNat_toNat, ofInt_statusOf, registerBytes_eq]
  simp

theorem prints_itemReader : Prints itemReader itemBytes := fun _ _ _ h => (itemReader_run h).1

theorem yields_grammar {response : BatchResponse} (h : Encodable response) :
    Yields grammar response.serialize response.plain := by
  have hresults :
    Yields (times itemReader response.results.length) (response.results.flatMap itemBytes)
      (response.results.map fun item => { item with status := plainStatus item.status }) :=
    yields_times fun item hitem => yields_itemReader (h.registers item hitem) (h.status item hitem)
  rw [← toNat_ofNat_length h.results] at hresults
  have hall := (yields_wordField (UInt16.ofNat response.results.length)).bind
    (f := fun itemCount => do
      let results ← times itemReader itemCount.toNat
      pure (⟨results⟩ : BatchResponse))
    (hresults.bind (Yields.pure response.plain))
  rwa [List.append_nil] at hall

theorem local_grammar : Local grammar :=
  local_wordField.bind fun _ => (local_times local_itemReader _).bind fun _ => Local.pure _

theorem prints_grammar : Prints grammar serialize := by
  intro xs response rest h
  obtain ⟨n, ys, hcount, h⟩ := run_bind_some.mp h
  obtain ⟨results, zs, hresults, h⟩ := run_bind_some.mp h
  cases h
  obtain ⟨hlen, hys⟩ := prints_times prints_itemReader n.toNat hresults
  rw [prints_wordField _ _ _ hcount, hys, serialize, hlen, UInt16.ofNat_toNat, List.append_assoc]

/-! ### The loops of `deserialize` -/

theorem deserializeRegisters_eq (h : data.Views xs) {n offset : ℕ}
    (hle : offset + n * 2 ≤ xs.length) :
    ∃ regs, deserializeRegisters data n offset = .ok regs ∧
      (times wordField n).run (xs.drop offset) = some (regs, xs.drop (offset + n * 2)) := by
  induction n generalizing offset with
  | zero => exact ⟨[], rfl, by rw [Nat.zero_mul]; rfl⟩
  | succ n ih =>
    have hhi := h.read (i := offset) (List.getElem?_eq_getElem (by omega))
    have hlo := h.read (i := offset + 1) (List.getElem?_eq_getElem (by omega))
    obtain ⟨regs, hregs, hrun⟩ := ih (show offset + 2 + n * 2 ≤ xs.length by omega)
    have hfirst := run_wordField_drop (show offset + 1 < xs.length by omega)
    refine ⟨word xs[offset] xs[offset + 1] :: regs, ?_, ?_⟩
    · rw [deserializeRegisters, hhi, ok_bind, hlo, ok_bind, hregs, ok_bind, pure_eq_ok]
    · rw [show offset + (n + 1) * 2 = offset + 2 + n * 2 by ring]
      exact run_bind_some.mpr ⟨_, _, hfirst, run_bind_some.mpr ⟨_, _, hrun, rfl⟩⟩

theorem run_itemReader_short {ys : List UInt8} (hlen : ys.length < 5) :
    itemReader.run ys = none := by
  match ys with
  | [] | [_] | [_, _] | [_, _, _] | [_, _, _, _] => rfl
  | _ :: _ :: _ :: _ :: _ :: _ =>
    simp only [List.length_cons] at hlen
    omega

theorem run_itemReader_drop {i : ℕ} (h : i + 4 < xs.length) :
    itemReader.run (xs.drop i) =
      ((times wordField (word xs[i + 3] xs[i + 4]).toNat).run (xs.drop (i + 5))).map fun r =>
        (⟨word xs[i] xs[i + 1], r.1, statusOf xs[i + 2]⟩, r.2) := by
  rw [itemReader]
  simp only [StateT.run_bind, run_wordField_drop (show i + 1 < xs.length by omega),
    run_next_drop (show i + 2 < xs.length by omega),
    run_wordField_drop (show i + 3 + 1 < xs.length by omega),
    Option.bind_eq_bind, Option.bind_some]
  cases (times wordField (word xs[i + 3] xs[i + 4]).toNat).run (xs.drop (i + 5)) <;> rfl

theorem deserializeItems_eq (h : data.Views xs) (n offset : ℕ) (results : List ItemResult) :
    deserializeItems data n offset results =
      .ok (batchVerdict
        (((times itemReader n).run (xs.drop offset)).map fun r => (⟨results ++ r.1⟩, r.2))) := by
  induction n generalizing offset results with
  | zero =>
    rw [deserializeItems, pure_eq_ok, times, StateT.run_pure, Option.pure_def, Option.map_some,
      List.append_nil]
    rfl
  | succ n ih =>
    rcases Nat.lt_or_ge xs.length (offset + 5) with hlen | hlen
    · have hdry : itemReader.run (xs.drop offset) = none :=
        run_itemReader_short (by rw [List.length_drop]; omega)
      rw [deserializeItems, h.size_eq, if_pos hlen, pure_eq_ok, times, StateT.run_bind, hdry]
      rfl
    have r₀ := h.read (i := offset) (List.getElem?_eq_getElem (by omega))
    have r₁ := h.read (i := offset + 1) (List.getElem?_eq_getElem (by omega))
    have r₂ := h.read (i := offset + 2) (List.getElem?_eq_getElem (by omega))
    have r₃ := h.read (i := offset + 3) (List.getElem?_eq_getElem (by omega))
    have r₄ := h.read (i := offset + 4) (List.getElem?_eq_getElem (by omega))
    simp only [deserializeItems, h.size_eq, gt_iff_lt, Nat.not_lt.mpr hlen, if_false, r₀, r₁,
      r₂, r₃, r₄, ok_bind]
    rw [times, StateT.run_bind, run_itemReader_drop hlen]
    generalize word xs[offset + 3] xs[offset + 4] = regCount
    rcases Nat.lt_or_ge xs.length (offset + 5 + regCount.toNat * 2) with hshort | hlong
    · have hdry := (fixed_times fixed_wordField regCount.toNat (xs.drop (offset + 5))).2
        (by rw [List.length_drop]; omega)
      rw [if_pos hshort, hdry]
      rfl
    · obtain ⟨regs, hregs, hrun⟩ := deserializeRegisters_eq h hlong
      rw [if_neg (Nat.not_lt.mpr hlong), hregs, ok_bind, hrun, ih]
      simp only [Option.map_some, Option.bind_eq_bind, Option.bind_some, StateT.run_bind]
      cases (times itemReader n).run (xs.drop (offset + 5 + regCount.toNat * 2)) with
      | none => rfl
      | some r => simp [batchVerdict]

/-- On a view of `xs` the decoder stays inside it and computes the grammar's verdict. -/
theorem deserialize_eq (h : data.Views xs) :
    deserialize data = .ok (batchVerdict (grammar.run xs)) := by
  rcases Nat.lt_or_ge xs.length 2 with hlen | hlen
  · rw [deserialize, h.size_eq, if_pos hlen, grammar, StateT.run_bind, (fixed_wordField xs).2 hlen]
    rfl
  have hcount : wordField.run xs = some (word xs[0] xs[1], xs.drop 2) :=
    run_wordField_drop (i := 0) (by omega)
  have r₀ : data.read 0 = .ok xs[0] := h.read (List.getElem?_eq_getElem (by omega))
  have r₁ : data.read 1 = .ok xs[1] := h.read (List.getElem?_eq_getElem (by omega))
  simp only [deserialize, h.size_eq, Nat.not_lt.mpr hlen, if_false, r₀, r₁, ok_bind,
    deserializeItems_eq h]
  rw [grammar, StateT.run_bind, hcount, Option.bind_eq_bind, Option.bind_some, StateT.run_bind]
  cases (times itemReader (word xs[0] xs[1]).toNat).run (xs.drop 2) <;> rfl

theorem deserialize_ofList (d : List UInt8) :
    deserialize (.ofList d) = .ok (batchVerdict (grammar.run d)) :=
  deserialize_eq (Span.views_ofList d)

/-- The offset at which the loop of `deserialize` stands after `n` items. -/
def offsetAfter (d : List UInt8) : ℕ → ℕ → ℕ
  | 0, offset => offset
  | n + 1, offset =>
    offsetAfter d n (offset + 5 + 2 * (word (d.getD (offset + 3) 0) (d.getD (offset + 4) 0)).toNat)

/-- The number of bytes that `deserialize` consumes of what it accepts. -/
def consumed (d : List UInt8) : ℕ := offsetAfter d (itemCount d) 2

theorem length_itemBytes (item : ItemResult) :
    (itemBytes item).length = 5 + 2 * item.registers.length := by
  rw [itemBytes, List.length_append, length_registerBytes]
  rfl

theorem countAt_itemBytes {d rest : List UInt8} {offset : ℕ} {item : ItemResult}
    (hlen : item.registers.length ≤ 65535) (h : d.drop offset = itemBytes item ++ rest) :
    (word (d.getD (offset + 3) 0) (d.getD (offset + 4) 0)).toNat = item.registers.length := by
  have hat (k : ℕ) : d.getD (offset + k) 0 = (itemBytes item ++ rest).getD k 0 := by
    rw [← h, List.getD_eq_getElem?_getD, List.getD_eq_getElem?_getD, List.getElem?_drop]
  rw [hat 3, hat 4, ← toNat_ofNat_length hlen]
  exact congrArg UInt16.toNat (word_bytes (UInt16.ofNat item.registers.length))

theorem offsetAfter_eq {d rest : List UInt8} {n offset : ℕ} {results : List ItemResult}
    (h : (times itemReader n).run (d.drop offset) = some (results, rest)) :
    offsetAfter d n offset = offset + (results.flatMap itemBytes).length := by
  induction n generalizing offset results with
  | zero =>
    cases h
    rfl
  | succ n ih =>
    obtain ⟨item, ys, hfirst, h⟩ := run_bind_some.mp h
    obtain ⟨results', zs, hothers, h⟩ := run_bind_some.mp h
    cases h
    obtain ⟨hitem, hlen⟩ := itemReader_run hfirst
    have hsize := length_itemBytes item
    have hys : ys = d.drop (offset + (5 + 2 * item.registers.length)) := by
      rw [← List.drop_drop, hitem, ← hsize, List.drop_left]
    rw [hys] at hothers
    rw [offsetAfter, countAt_itemBytes hlen hitem, Nat.add_assoc, ih hothers, List.flatMap_cons,
      List.length_append, hsize, Nat.add_assoc]

theorem consumed_eq {d rest : List UInt8} {response : BatchResponse}
    (h : grammar.run d = some (response, rest)) :
    response.serialize.length = consumed d := by
  obtain ⟨n, ys, hcount, h⟩ := run_bind_some.mp h
  obtain ⟨results, zs, hresults, h⟩ := run_bind_some.mp h
  cases h
  have hd := prints_wordField _ _ _ hcount
  have hys : ys = d.drop 2 := by rw [hd]; rfl
  have hitems : itemCount d = n.toNat := by
    rw [hd]
    simp [itemCount]
  rw [hys] at hresults
  rw [consumed, hitems, offsetAfter_eq hresults, serialize, List.length_append]
  rfl

/-- A response whose counts and statuses fit comes back from its bytes, its successes as the
default code, and from no proper part of them; and any byte string is decoded without
reading beyond its end, to a response whose bytes are those consumed. -/
theorem response_codec_exact :
    (∀ response : BatchResponse, Encodable response →
      deserialize (.ofList response.serialize) = .ok (.value response.plain) ∧
      ((∀ item ∈ response.results, item.status.isError = false → item.status = .none) →
        response.plain = response) ∧
      ∀ n < response.serialize.length,
        deserialize (.ofList (response.serialize.take n)) = .ok (.fail .deserializationFailed)) ∧
    ∀ d : List UInt8, ∃ r, deserialize (.ofList d) = .ok r ∧
      ∀ response, r = .value response → response.serialize = d.take (consumed d) := by
  constructor
  · intro response hresponse
    have hrun := yields_grammar hresponse []
    rw [List.append_nil] at hrun
    refine ⟨by rw [deserialize_ofList, hrun]; rfl, plain_eq_self, fun n hn => ?_⟩
    rw [deserialize_ofList]
    cases hpart : grammar.run (response.serialize.take n) with
    | none => rfl
    | some r => exact absurd (local_grammar.take_of_all hrun hpart) (Nat.not_le.mpr hn)
  · intro d
    refine ⟨_, deserialize_ofList d, fun response h => ?_⟩
    obtain ⟨rest, hrun⟩ := batchVerdict_eq_value.mp h
    rw [← consumed_eq hrun, prints_grammar _ _ _ hrun, List.take_left]

end BatchResponse

end ModbusPp

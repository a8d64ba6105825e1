import ModbusPp.Core.PduGrammar

/-! What the decoder accepts and what an accepted PDU looks like. The lengths
depend on the two presence flags; `Coherent` is the agreement of flags, optional
fields and stated length that every accepted extended PDU has. -/

namespace ModbusPp.PDU

open Foundation Foundation.Reader

/-- The size of the timestamp field under the given flags. -/
def timestampSize (flags : FrameFlag) : ℕ := if flags.has .hasTimestamp then 8 else 0

/-- The size of the digest field under the given flags. -/
def hmacSize (flags : FrameFlag) : ℕ := if flags.has .hasHMAC then 32 else 0

/-- Flags, optional fields and stated length of an extended PDU agree. -/
structure Coherent (pdu : PDU) (hdr : FrameHeader) : Prop where
  version_one : hdr.version = 1
  timestamp_flag : hdr.timestamp.isSome = hdr.flags.has .hasTimestamp
  hmac_flag : pdu.hmac.isSome = hdr.flags.has .hasHMAC
  length_field : pdu.payload.length = hdr.payloadLength.toNat

/-- A PDU the wire can carry. -/
def OnWire (pdu : PDU) : Prop :=
  match pdu.extHeader with
  | none => ¬pdu.functionCode.IsExtended ∧ pdu.hmac = none
  | some hdr => pdu.functionCode.IsExtended ∧ Coherent pdu hdr

/-- The flag word of an extended frame. -/
def flagWord (raw : List UInt8) : FrameFlag := ⟨word (raw.getD 2 0) (raw.getD 3 0)⟩

/-- The layout condition on an extended frame. The length field is looked up at
the offset the timestamp flag gives it, and must be there. -/
def ExtendedAccepted (raw : List UInt8) : Prop :=
  9 ≤ raw.length ∧ raw[1]? = some 1 ∧
    ∃ hi lo, raw[7 + timestampSize (flagWord raw)]? = some hi ∧
      raw[8 + timestampSize (flagWord raw)]? = some lo ∧
      9 + timestampSize (flagWord raw) + hmacSize (flagWord raw) + (word hi lo).toNat ≤ raw.length

/-- The byte strings the decoder accepts. -/
def Accepted (raw : List UInt8) : Prop :=
  ∃ fc, raw.head? = some fc ∧ (¬FunctionCode.IsExtended ⟨fc⟩ ∨ ExtendedAccepted raw)

/-- An extended frame long enough for its header whose version byte is not one. -/
def WrongVersion (raw : List UInt8) : Prop :=
  ∃ fc, raw.head? = some fc ∧ FunctionCode.IsExtended ⟨fc⟩ ∧ 9 ≤ raw.length ∧ raw[1]? ≠ some 1

/-! ### The parts of an extended frame -/

theorem hmacPart_run (fc : FunctionCode) (hdr : FrameHeader) (payload ys : List UInt8) :
    ((hmacPart fc hdr payload).run ys).isSome ↔ hmacSize hdr.flags ≤ ys.length := by
  cases hflag : hdr.flags.has .hasHMAC with
  | false => simp [hmacPart, hmacSize, hflag, whenSet]
  | true =>
    rcases Nat.lt_or_ge ys.length 32 with hlen | hlen
    · simp [hmacPart, hmacSize, hflag, whenSet, run_takeN_of_short hlen, hlen]
    · simp [hmacPart, hmacSize, hflag, whenSet, run_takeN_of_le hlen, hlen]

theorem payloadPart_cons (fc : FunctionCode) (hdr : FrameHeader)
    (e hi lo : UInt8) (zs : List UInt8) :
    (payloadPart fc hdr).run (e :: hi :: lo :: zs) =
      if (word hi lo).toNat ≤ zs.length then
        (hmacPart fc { hdr with extFunctionCode := ⟨e⟩, payloadLength := word hi lo }
          (zs.take (word hi lo).toNat)).run (zs.drop (word hi lo).toNat)
      else none := by
  simp only [payloadPart, wordField, StateT.run_bind, run_next_cons, Option.bind_eq_bind,
    Option.bind_some, StateT.run_pure, Option.pure_def]
  split_ifs with h
  · rw [run_takeN_of_le h, Option.bind_some, Block.slice_toList, List.drop_zero]
  · rw [run_takeN_of_short (Nat.not_le.mp h), Option.bind_none]

theorem payloadPart_run (fc : FunctionCode) (hdr : FrameHeader) (ys : List UInt8) :
    ((payloadPart fc hdr).run ys).isSome ↔
      ∃ hi lo, ys[1]? = some hi ∧ ys[2]? = some lo ∧
        3 + hmacSize hdr.flags + (word hi lo).toNat ≤ ys.length := by
  rcases Nat.lt_or_ge ys.length 3 with hlen | hlen
  · rw [payloadPart_short fc hdr hlen]
    simp only [Option.isSome_none, Bool.false_eq_true, false_iff]
    rintro ⟨hi, lo, -, -, hle⟩
    omega
  · match ys, hlen with
    | e :: hi :: lo :: zs, _ =>
      simp only [payloadPart_cons, List.getElem?_cons_succ, List.getElem?_cons_zero,
        Option.some.injEq, exists_and_left, exists_eq_left', List.length_cons]
      split_ifs with h
      · rw [hmacPart_run, List.length_drop]
        change hmacSize hdr.flags ≤ _ ↔ _
        omega
      · simp only [Option.isSome_none, Bool.false_eq_true, false_iff]
        omega

theorem timestampPart_run (fc : FunctionCode) (hdr : FrameHeader) (ys : List UInt8) :
    ((timestampPart fc hdr).run ys).isSome ↔
      ∃ hi lo, ys[1 + timestampSize hdr.flags]? = some hi ∧
        ys[2 + timestampSize hdr.flags]? = some lo ∧
        3 + timestampSize hdr.flags + hmacSize hdr.flags + (word hi lo).toNat ≤ ys.length := by
  cases hflag : hdr.flags.has .hasTimestamp with
  | false =>
    simp only [timestampPart, timestampSize, hflag, whenSet, Bool.false_eq_true, if_false,
      StateT.run_bind, StateT.run_pure, Option.pure_def, Option.bind_eq_bind, Option.bind_some]
    exact payloadPart_run fc _ ys
  | true =>
    simp only [timestampPart, timestampSize, hflag, whenSet, if_true, StateT.run_bind,
      StateT.run_map, Option.bind_eq_bind, Option.map_eq_map]
    rcases Nat.lt_or_ge ys.length 8 with hlen | hlen
    · rw [run_takeN_of_short hlen]
      simp only [Option.map_none, Option.bind_none, Option.isSome_none,
        Bool.false_eq_true, false_iff]
      rintro ⟨hi, lo, -, -, hle⟩
      omega
    · rw [run_takeN_of_le hlen, Option.map_some, Option.map_some, Option.bind_some, payloadPart_run]
      simp only [List.getElem?_drop, List.length_drop, Nat.add_comm 8]
      constructor
      · rintro ⟨hi, lo, h₁, h₂, hle⟩
        exact ⟨hi, lo, h₁, h₂, by omega⟩
      · rintro ⟨hi, lo, h₁, h₂, hle⟩
        exact ⟨hi, lo, h₁, h₂, by omega⟩

/-! ### Accepted PDUs are coherent -/

theorem hmacPart_shape {fc : FunctionCode} {hdr : FrameHeader}
    {payload ys rest : List UInt8} {pdu : PDU}
    (h : (hmacPart fc hdr payload).run ys = some (pdu, rest)) :
    pdu.functionCode = fc ∧ pdu.extHeader = some hdr ∧ pdu.payload = payload ∧
      pdu.hmac.isSome = hdr.flags.has .hasHMAC := by
  cases hflag : hdr.flags.has .hasHMAC with
  | false =>
    simp [hmacPart, hflag, whenSet] at h
    obtain ⟨rfl, -⟩ := h
    simp
  | true =>
    simp [hmacPart, hflag, whenSet] at h
    obtain ⟨digest, -, rfl⟩ := h
    simp

theorem payloadPart_shape {fc : FunctionCode} {hdr : FrameHeader} {ys rest : List UInt8} {pdu : PDU}
    (h : (payloadPart fc hdr).run ys = some (pdu, rest)) :
    ∃ e n, pdu.functionCode = fc ∧
      pdu.extHeader = some { hdr with extFunctionCode := e, payloadLength := n } ∧
      pdu.payload.length = n.toNat ∧ pdu.hmac.isSome = hdr.flags.has .hasHMAC := by
  rcases Nat.lt_or_ge ys.length 3 with hlen | hlen
  · rw [payloadPart_short fc hdr hlen] at h
    contradiction
  · match ys, hlen with
    | e :: hi :: lo :: zs, _ =>
      rw [payloadPart_cons] at h
      split_ifs at h with hn
      obtain ⟨hfc, hhdr, hpayload, hhmac⟩ := hmacPart_shape h
      exact ⟨⟨e⟩, word hi lo, hfc, hhdr, by rw [hpayload, List.length_take, Nat.min_eq_left hn],
        hhmac⟩

theorem timestampPart_shape {fc : FunctionCode} {hdr : FrameHeader}
    (hv : hdr.version = 1) {ys rest : List UInt8} {pdu : PDU}
    (h : (timestampPart fc hdr).run ys = some (pdu, rest)) :
    pdu.functionCode = fc ∧ ∃ hdr', pdu.extHeader = some hdr' ∧ Coherent pdu hdr' := by
  simp only [timestampPart, StateT.run_bind, Option.bind_eq_bind, Option.bind_eq_some_iff,
    Prod.exists] at h
  obtain ⟨ts, zs, hts, hbody⟩ := h
  obtain ⟨e, n, hfc, hhdr, hlen, hhmac⟩ := payloadPart_shape hbody
  refine ⟨hfc, _, hhdr, hv, ?_, hhmac, hlen⟩
  cases hflag : hdr.flags.has .hasTimestamp with
  | false =>
    simp [hflag, whenSet] at hts
    simp [← hts.1]
  | true =>
    simp [hflag, whenSet] at hts
    obtain ⟨t, -, rfl⟩ := hts
    rfl

theorem verdict_eq_value {o : Option (PDU × List UInt8)} {pdu : PDU} :
    verdict o = .value pdu ↔ ∃ rest, o = some (pdu, rest) := by
  rcases o with _ | ⟨q, rest⟩
  · simp [verdict, Result.fail]
  · simp [verdict]

theorem verdict_hasValue (o : Option (PDU × List UInt8)) : (verdict o).hasValue = o.isSome := by
  cases o <;> rfl

/-- The four ways a non-empty byte string can be judged. -/
theorem parse_cases (fc : UInt8) (rest : List UInt8) :
    (¬FunctionCode.IsExtended ⟨fc⟩ ∧ parse (fc :: rest) = .value (makeStandard ⟨fc⟩ rest)) ∨
    (FunctionCode.IsExtended ⟨fc⟩ ∧ rest.length < 8 ∧ parse (fc :: rest) = .fail .invalidFrame) ∨
    (FunctionCode.IsExtended ⟨fc⟩ ∧ 8 ≤ rest.length ∧ rest.head? ≠ some 1 ∧
      parse (fc :: rest) = .fail .unsupportedVersion) ∨
    (FunctionCode.IsExtended ⟨fc⟩ ∧ 8 ≤ rest.length ∧ rest.head? = some 1 ∧
      parse (fc :: rest) = verdict ((extendedBody ⟨fc⟩).run rest.tail)) := by
  by_cases hext : FunctionCode.IsExtended ⟨fc⟩
  swap
  · exact Or.inl ⟨hext, by simp [parse, hext]⟩
  rcases Nat.lt_or_ge rest.length 8 with hlen | hlen
  · exact Or.inr (Or.inl ⟨hext, hlen, by simp [parse, hext, hlen]⟩)
  by_cases hv : rest.head? = some 1
  · exact Or.inr (Or.inr (Or.inr ⟨hext, hlen, hv, by simp [parse, hext, Nat.not_lt.mpr hlen, hv]⟩))
  · exact Or.inr (Or.inr (Or.inl ⟨hext, hlen, hv, by simp [parse, hext, Nat.not_lt.mpr hlen, hv]⟩))

/-- An accepted PDU has the function code it was sent under, and the wire can
carry it. -/
theorem parse_shape {fc : UInt8} {rest : List UInt8} {pdu : PDU}
    (h : parse (fc :: rest) = .value pdu) :
    pdu.functionCode = ⟨fc⟩ ∧ pdu.OnWire := by
  obtain ⟨hext, heq⟩ | ⟨-, -, heq⟩ | ⟨-, -, -, heq⟩ | ⟨hext, -, -, heq⟩ :=
    parse_cases fc rest <;> rw [heq] at h
  · rw [Result.value.injEq] at h
    subst h
    exact ⟨rfl, hext, rfl⟩
  · simp [Result.fail] at h
  · simp [Result.fail] at h
  · obtain ⟨tail, hrun⟩ := verdict_eq_value.mp h
    simp only [extendedBody, StateT.run_bind, Option.bind_eq_bind, Option.bind_eq_some_iff,
      Prod.exists] at hrun
    obtain ⟨flags, ys, -, corr, zs, -, hbody⟩ := hrun
    obtain ⟨hfc, hdr, hhdr, hcoherent⟩ := timestampPart_shape rfl hbody
    refine ⟨hfc, ?_⟩
    rw [OnWire, hhdr, hfc]
    exact ⟨hext, hcoherent⟩

theorem parse_onWire {raw : List UInt8} {pdu : PDU} (h : parse raw = .value pdu) : pdu.OnWire := by
  rcases raw with _ | ⟨fc, rest⟩
  · simp [parse, Result.fail] at h
  · exact (parse_shape h).2

/-! ### Accepted PDUs off any view -/

section shape

variable {raw : Span UInt8} {fc : FunctionCode} {hdr : FrameHeader}
  {payload : List UInt8} {offset : ℕ} {pdu : PDU}

theorem deserializeHmac_shape (h : deserializeHmac raw fc hdr payload offset = .ok (.value pdu)) :
    pdu.functionCode = fc ∧ pdu.extHeader = some hdr := by
  unfold deserializeHmac at h
  split_ifs at h with hflag hsize
  · cases h
  · obtain ⟨digest, -, h⟩ := bind_eq_ok.mp h
    cases h
    exact ⟨rfl, rfl⟩
  · cases h
    exact ⟨rfl, rfl⟩

theorem deserializePayload_shape (h : deserializePayload raw fc hdr offset = .ok (.value pdu)) :
    pdu.functionCode = fc ∧ ∃ hdr', pdu.extHeader = some hdr' ∧ hdr'.flags = hdr.flags := by
  unfold deserializePayload at h
  split_ifs at h with hsize
  · cases h
  · obtain ⟨extFc, -, h⟩ := bind_eq_ok.mp h
    obtain ⟨hi, -, h⟩ := bind_eq_ok.mp h
    obtain ⟨lo, -, h⟩ := bind_eq_ok.mp h
    dsimp only at h
    split_ifs at h with hlength
    · cases h
    · obtain ⟨payload, -, h⟩ := bind_eq_ok.mp h
      obtain ⟨hfc, hhdr⟩ := deserializeHmac_shape h
      exact ⟨hfc, _, hhdr, rfl⟩

theorem deserializeTimestamp_shape (h : deserializeTimestamp raw fc hdr offset = .ok (.value pdu)) :
    pdu.functionCode = fc ∧ ∃ hdr', pdu.extHeader = some hdr' ∧ hdr'.flags = hdr.flags := by
  unfold deserializeTimestamp at h
  split_ifs at h with hflag hsize
  · cases h
  · obtain ⟨ts, -, h⟩ := bind_eq_ok.mp h
    obtain ⟨hfc, hhdr⟩ := deserializePayload_shape h
    exact ⟨hfc, hhdr⟩
  · exact deserializePayload_shape h

/-- The first byte is the function code, and only the extended codes come with a header,
whose flags are the word at byte 2. -/
theorem deserialize_shape (h : deserialize raw = .ok (.value pdu)) :
    ∃ fc, raw.read 0 = .ok fc ∧ pdu.functionCode = ⟨fc⟩ ∧
      (¬FunctionCode.IsExtended ⟨fc⟩ ∧ pdu.extHeader = none ∨
      FunctionCode.IsExtended ⟨fc⟩ ∧ ∃ hdr hi lo, pdu.extHeader = some hdr ∧ raw.read 2 = .ok hi ∧
        raw.read 3 = .ok lo ∧ hdr.flags = ⟨word hi lo⟩) := by
  unfold deserialize at h
  by_cases hempty : raw.size < 1
  · rw [if_pos hempty] at h
    cases h
  rw [if_neg hempty] at h
  obtain ⟨fc, hread, h⟩ := bind_eq_ok.mp h
  dsimp only at h
  refine ⟨fc, hread, ?_⟩
  by_cases hstandard : ¬FunctionCode.IsExtended ⟨fc⟩
  · rw [if_pos hstandard] at h
    obtain ⟨data, -, h⟩ := bind_eq_ok.mp h
    cases h
    exact ⟨rfl, .inl ⟨hstandard, rfl⟩⟩
  · rw [if_neg hstandard] at h
    split_ifs at h with hsize
    · cases h
    · obtain ⟨version, -, h⟩ := bind_eq_ok.mp h
      split_ifs at h with hversion
      · cases h
      · obtain ⟨hi, hhi, h⟩ := bind_eq_ok.mp h
        obtain ⟨lo, hlo, h⟩ := bind_eq_ok.mp h
        obtain ⟨c₁, -, h⟩ := bind_eq_ok.mp h
        obtain ⟨c₀, -, h⟩ := bind_eq_ok.mp h
        obtain ⟨hfc, hdr, hhdr, hflags⟩ := deserializeTimestamp_shape h
        exact ⟨hfc, .inr ⟨not_not.mp hstandard, hdr, hi, lo, hhdr, hhi, hlo, hflags⟩⟩

end shape

section rejected

variable {raw : Span UInt8} {fc : FunctionCode} {hdr : FrameHeader}
  {payload : List UInt8} {offset : ℕ}
  {ec : StdErrorCode}

/-- The codes with which a frame is rejected. -/
def IsRejection (ec : StdErrorCode) : Prop :=
  ec = makeErrorCode .invalidFrame ∨ ec = makeErrorCode .unsupportedVersion

theorem deserializeHmac_rejection
    (h : deserializeHmac raw fc hdr payload offset = .ok (.failure ec)) :
    IsRejection ec := by
  unfold deserializeHmac at h
  split_ifs at h with hflag hsize
  · cases h
    exact .inl rfl
  · obtain ⟨digest, -, h⟩ := bind_eq_ok.mp h
    cases h
  · cases h

theorem deserializePayload_rejection
    (h : deserializePayload raw fc hdr offset = .ok (.failure ec)) :
    IsRejection ec := by
  unfold deserializePayload at h
  split_ifs at h with hsize
  · cases h
    exact .inl rfl
  · obtain ⟨extFc, -, h⟩ := bind_eq_ok.mp h
    obtain ⟨hi, -, h⟩ := bind_eq_ok.mp h
    obtain ⟨lo, -, h⟩ := bind_eq_ok.mp h
    dsimp only at h
    split_ifs at h with hlength
    · cases h
      exact .inl rfl
    · obtain ⟨payload, -, h⟩ := bind_eq_ok.mp h
      exact deserializeHmac_rejection h

theorem deserializeTimestamp_rejection
    (h : deserializeTimestamp raw fc hdr offset = .ok (.failure ec)) :
    IsRejection ec := by
  unfold deserializeTimestamp at h
  split_ifs at h with hflag hsize
  · cases h
    exact .inl rfl
  · obtain ⟨ts, -, h⟩ := bind_eq_ok.mp h
    exact deserializePayload_rejection h
  · exact deserializePayload_rejection h

/-- A PDU is rejected as an invalid frame or for its version. -/
theorem deserialize_rejection (h : deserialize raw = .ok (.failure ec)) : IsRejection ec := by
  unfold deserialize at h
  by_cases hempty : raw.size < 1
  · rw [if_pos hempty] at h
    cases h
    exact .inl rfl
  rw [if_neg hempty] at h
  obtain ⟨fc, -, h⟩ := bind_eq_ok.mp h
  dsimp only at h
  by_cases hstandard : ¬FunctionCode.IsExtended ⟨fc⟩
  · rw [if_pos hstandard] at h
    obtain ⟨data, -, h⟩ := bind_eq_ok.mp h
    cases h
  rw [if_neg hstandard] at h
  split_ifs at h with hsize
  · cases h
    exact .inl rfl
  obtain ⟨version, -, h⟩ := bind_eq_ok.mp h
  split_ifs at h with hversion
  · cases h
    exact .inr rfl
  obtain ⟨hi, -, h⟩ := bind_eq_ok.mp h
  obtain ⟨lo, -, h⟩ := bind_eq_ok.mp h
  obtain ⟨c₁, -, h⟩ := bind_eq_ok.mp h
  obtain ⟨c₀, -, h⟩ := bind_eq_ok.mp h
  exact deserializeTimestamp_rejection h

end rejected

/-! ### The accepted byte strings -/

theorem extendedBody_run (fc f₁ f₀ c₁ c₀ : UInt8) (zs : List UInt8) :
    ((extendedBody ⟨fc⟩).run (f₁ :: f₀ :: c₁ :: c₀ :: zs)).isSome ↔
      ∃ hi lo, zs[1 + timestampSize ⟨word f₁ f₀⟩]? = some hi ∧
        zs[2 + timestampSize ⟨word f₁ f₀⟩]? = some lo ∧
        3 + timestampSize ⟨word f₁ f₀⟩ + hmacSize ⟨word f₁ f₀⟩ +
          (word hi lo).toNat ≤ zs.length := by
  simp only [extendedBody, wordField, StateT.run_bind, run_next_cons, Option.bind_eq_bind,
    Option.bind_some, StateT.run_pure, Option.pure_def]
  exact timestampPart_run ⟨fc⟩ _ zs

theorem extendedAccepted_cons (fc v f₁ f₀ c₁ c₀ : UInt8) (zs : List UInt8) :
    ExtendedAccepted (fc :: v :: f₁ :: f₀ :: c₁ :: c₀ :: zs) ↔
      3 ≤ zs.length ∧ v = 1 ∧ ((extendedBody ⟨fc⟩).run (f₁ :: f₀ :: c₁ :: c₀ :: zs)).isSome := by
  have hflags : flagWord (fc :: v :: f₁ :: f₀ :: c₁ :: c₀ :: zs) = ⟨word f₁ f₀⟩ := rfl
  rw [extendedBody_run, ExtendedAccepted, hflags]
  generalize timestampSize ⟨word f₁ f₀⟩ = t
  generalize hmacSize ⟨word f₁ f₀⟩ = m
  rw [show 7 + t = 1 + t + 6 by omega, show 8 + t = 2 + t + 6 by omega]
  simp only [List.length_cons, List.getElem?_cons_succ, List.getElem?_cons_zero, Option.some.injEq]
  have hlen (n : ℕ) : (9 + t + m + n ≤ zs.length + 1 + 1 + 1 + 1 + 1 + 1) ↔
    (3 + t + m + n ≤ zs.length) := by omega
  have hmin : (9 ≤ zs.length + 1 + 1 + 1 + 1 + 1 + 1) ↔ (3 ≤ zs.length) := by omega
  simp only [hlen, hmin]

/-- The decoder accepts exactly the byte strings of the grammar. -/
theorem parse_hasValue (raw : List UInt8) : (parse raw).hasValue = true ↔ Accepted raw := by
  rcases raw with _ | ⟨fc, rest⟩
  · simp [parse, Accepted, Result.fail, Result.hasValue]
  have hacc (hext : FunctionCode.IsExtended ⟨fc⟩) : Accepted (fc :: rest) ↔
      ExtendedAccepted (fc :: rest) := by
    simp [Accepted, hext]
  obtain ⟨hext, heq⟩ | ⟨hext, hlen, heq⟩ | ⟨hext, -, hv, heq⟩ | ⟨hext, hlen, hv, heq⟩ :=
    parse_cases fc rest <;>
    rw [heq]
  · simp [Accepted, hext, Result.hasValue]
  · rw [hacc hext]
    simp only [Result.fail, Result.hasValue, Bool.false_eq_true, false_iff]
    rintro ⟨hmin, -⟩
    simp only [List.length_cons] at hmin
    omega
  · rw [hacc hext]
    simp only [Result.fail, Result.hasValue, Bool.false_eq_true, false_iff]
    rintro ⟨-, hone, -⟩
    rw [List.getElem?_cons_succ, ← List.head?_eq_getElem?] at hone
    exact hv hone
  · rw [hacc hext, verdict_hasValue]
    obtain ⟨v, f₁, f₀, c₁, c₀, zs, rfl⟩ := exists_header hlen
    simp only [List.length_cons] at hlen
    rw [extendedAccepted_cons, List.tail_cons]
    exact ⟨fun h => ⟨by omega, by simpa using hv, h⟩, fun h => h.2.2⟩

theorem invalid_ne_unsupported :
    (Result.fail .invalidFrame : Result PDU) ≠ .fail .unsupportedVersion := by decide

/-- The version error is reported exactly for long enough extended frames of
another version. -/
theorem parse_unsupported (raw : List UInt8) :
    parse raw = .fail .unsupportedVersion ↔ WrongVersion raw := by
  rcases raw with _ | ⟨fc, rest⟩
  · simp [parse, WrongVersion, invalid_ne_unsupported]
  have hv₁ : (fc :: rest)[1]? = rest.head? := by
    rw [List.getElem?_cons_succ, List.head?_eq_getElem?]
  simp only [WrongVersion, List.head?_cons, Option.some.injEq, exists_eq_left',
    List.length_cons, hv₁]
  obtain ⟨hext, heq⟩ | ⟨-, hlen, heq⟩ | ⟨hext, hlen, hv, heq⟩ | ⟨-, -, hv, heq⟩ :=
    parse_cases fc rest <;>
    rw [heq]
  · simp [hext, Result.fail]
  · simp only [invalid_ne_unsupported, false_iff]
    rintro ⟨-, h, -⟩
    omega
  · simp only [true_iff]
    exact ⟨hext, by omega, hv⟩
  · simp only [hv, ne_eq, not_true, and_false, iff_false]
    cases (extendedBody ⟨fc⟩).run rest.tail with
    | none => exact invalid_ne_unsupported
    | some r => simp [verdict, Result.fail]

theorem parse_invalid (raw : List UInt8) :
    parse raw = .fail .invalidFrame ↔ ¬Accepted raw ∧ ¬WrongVersion raw := by
  rw [← parse_hasValue, ← parse_unsupported]
  constructor
  · intro h
    rw [h]
    exact ⟨Bool.false_ne_true, invalid_ne_unsupported⟩
  · rintro ⟨hacc, hver⟩
    rcases raw with _ | ⟨fc, rest⟩
    · rfl
    obtain ⟨-, heq⟩ | ⟨-, -, heq⟩ | ⟨-, -, -, heq⟩ | ⟨-, -, -, heq⟩ := parse_cases fc rest
    · exact absurd (by rw [heq]; rfl) hacc
    · exact heq
    · exact absurd heq hver
    · rw [heq, verdict_hasValue] at hacc
      rw [heq, Option.not_isSome_iff_eq_none.mp hacc, verdict]

theorem isExtendedFrame_eq {raw : List UInt8} {pdu : PDU} (h : parse raw = .value pdu) :
    isExtendedFrame (.ofList raw) = .ok pdu.isExtended := by
  rcases raw with _ | ⟨fc, rest⟩
  · simp [parse, Result.fail] at h
  obtain ⟨hfc, hwire⟩ := parse_shape h
  have hread : (Span.ofList (fc :: rest)).read 0 = .ok fc := rfl
  have hmark :
    (decide (fc = FunctionCode.extended.byte) || decide (fc = FunctionCode.extendedStream.byte)) =
      decide (FunctionCode.IsExtended ⟨fc⟩) := by
    rw [← Bool.decide_or]
    congr 1
    simp [FunctionCode.IsExtended, FunctionCode.extended, FunctionCode.extendedStream]
  simp only [isExtendedFrame, hread, ok_bind, pure_eq_ok, hmark]
  simp only [OnWire, hfc] at hwire
  cases hhdr : pdu.extHeader with
  | none =>
    rw [hhdr] at hwire
    simp [Span.ofList, isExtended, hhdr, hwire.1]
  | some hdr =>
    rw [hhdr] at hwire
    simp [Span.ofList, isExtended, hhdr, hwire.1]

/-- The decoder on a received byte string: it stays inside the string, accepts
exactly the grammar, tells a wrong version from any other defect, and what it
accepts is coherent and of the kind its first byte announces. -/
theorem deserialize_grammar (raw : List UInt8) :
    ∃ r, deserialize (.ofList raw) = .ok r ∧
      (r.hasValue = true ↔ Accepted raw) ∧
      (r = .fail .unsupportedVersion ↔ WrongVersion raw) ∧
      (r = .fail .invalidFrame ↔ ¬Accepted raw ∧ ¬WrongVersion raw) ∧
      ∀ pdu, r = .value pdu → isExtendedFrame (.ofList raw) = .ok pdu.isExtended ∧
        ∀ hdr, pdu.extHeader = some hdr →
          hdr.timestamp.isSome = hdr.flags.has .hasTimestamp ∧
          pdu.hmac.isSome = hdr.flags.has .hasHMAC ∧
          pdu.payload.length = hdr.payloadLength.toNat := by
  refine ⟨parse raw, deserialize_ofList raw, parse_hasValue raw, parse_unsupported raw,
    parse_invalid raw, ?_⟩
  intro pdu h
  refine ⟨isExtendedFrame_eq h, ?_⟩
  intro hdr hhdr
  have hwire := parse_onWire h
  rw [OnWire, hhdr] at hwire
  exact ⟨hwire.2.timestamp_flag, hwire.2.hmac_flag, hwire.2.length_field⟩

end ModbusPp.PDU

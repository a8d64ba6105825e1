import ModbusPp.Core.PduSilentChange

/-! PDUs that are cut short or read through a view that is too long. An extended
frame says where it ends: no proper part of it is accepted, and a decoder told
that more bytes follow reads no further. A standard frame ends where its view
does. -/

namespace ModbusPp.PDU

open Foundation Foundation.Reader

/-- The PDU survives `serialize` and `deserialize`. -/
def RoundTrips (pdu : PDU) : Prop := deserialize (.ofList pdu.serialize) = .ok (.value pdu)

theorem RoundTrips.parse {pdu : PDU} (h : RoundTrips pdu) : parse pdu.serialize = .value pdu := by
  rw [RoundTrips, deserialize_ofList] at h
  exact Except.ok.inj h

/-! ### Parts -/

theorem local_hmacPart (fc : FunctionCode) (hdr : FrameHeader) (payload : List UInt8) :
    Local (hmacPart fc hdr payload) :=
  ((local_takeN 32).whenSet _).bind fun _ => Local.pure _

theorem local_payloadPart (fc : FunctionCode) (hdr : FrameHeader) : Local (payloadPart fc hdr) :=
  local_next.bind fun _ => local_wordField.bind fun _ => (local_takeN _).bind fun _ =>
    local_hmacPart _ _ _

theorem local_timestampPart (fc : FunctionCode) (hdr : FrameHeader) :
    Local (timestampPart fc hdr) :=
  (((local_takeN 8).map _).whenSet _).bind fun _ => local_payloadPart _ _

theorem local_extendedBody (fc : FunctionCode) : Local (extendedBody fc) :=
  local_wordField.bind fun _ => local_wordField.bind fun _ => local_timestampPart _ _

theorem serialize_body {pdu : PDU} {hdr : FrameHeader} (hhdr : pdu.extHeader = some hdr)
    (hfc : pdu.functionCode = .extended) (h : Coherent pdu hdr) :
    ∃ body, pdu.serialize = FunctionCode.extended.byte :: 1 :: body ∧
      (extendedBody .extended).run body = some (pdu, []) := by
  refine ⟨_, by rw [serialize_extended hhdr, h.version_one], ?_⟩
  have hrun := yields_extendedBody .extended pdu hdr h []
  rw [List.append_nil] at hrun
  rw [hrun, ← hfc, ← hhdr]

/-- The two kinds of PDU that survive the wire. -/
theorem RoundTrips.cases {pdu : PDU} (h : RoundTrips pdu) :
    (pdu.isExtended = false ∧ ¬pdu.functionCode.IsExtended ∧
      pdu = makeStandard pdu.functionCode pdu.payload) ∨
    (∃ hdr, pdu.extHeader = some hdr ∧ pdu.functionCode = .extended ∧ Coherent pdu hdr) := by
  have hparse := h.parse
  obtain ⟨fc, hdr, payload, hmac⟩ := pdu
  cases hdr with
  | none =>
    obtain ⟨hext, rfl⟩ := parse_onWire hparse
    exact Or.inl ⟨rfl, hext, rfl⟩
  | some hdr =>
    obtain ⟨hfc, hwire⟩ := parse_shape hparse
    exact Or.inr ⟨hdr, rfl, hfc, hwire.2⟩

/-- No proper part of such a PDU's bytes decodes to the PDU. -/
theorem RoundTrips.length_le_of_take {pdu : PDU} (h : RoundTrips pdu) {n : ℕ}
    (htake : PDU.parse (pdu.serialize.take n) = .value pdu) : pdu.serialize.length ≤ n := by
  obtain ⟨-, hfc, hpdu⟩ | ⟨hdr, hhdr, hfc, hcoh⟩ := h.cases
  · have hser : pdu.serialize = pdu.functionCode.byte :: pdu.payload := by rw [hpdu]; rfl
    cases n with
    | zero => simp [PDU.parse, Result.fail] at htake
    | succ n =>
      rw [hser, List.take_succ_cons, PDU.parse, if_pos hfc, Result.value.injEq] at htake
      have hpayload : pdu.payload.take n = pdu.payload := congrArg PDU.payload htake
      rw [hser, List.length_cons, ← hpayload, List.length_take]
      omega
  · obtain ⟨body, hser, hrun⟩ := serialize_body hhdr hfc hcoh
    rcases n with _ | _ | n
    · simp [PDU.parse, Result.fail] at htake
    · simp [hser, PDU.parse, Result.fail, FunctionCode.IsExtended, FunctionCode.extended] at htake
    · rw [hser, List.take_succ_cons, List.take_succ_cons] at htake
      obtain ⟨hno, -⟩ | ⟨-, -, heq⟩ | ⟨-, -, -, heq⟩ | ⟨-, -, -, heq⟩ :=
        parse_cases FunctionCode.extended.byte (1 :: body.take n)
      · exact absurd (Or.inl rfl) hno
      · rw [heq] at htake
        contradiction
      · rw [heq] at htake
        contradiction
      · rw [heq, List.tail_cons] at htake
        obtain ⟨rest, hpart⟩ := verdict_eq_value.mp htake
        have hle := (local_extendedBody .extended).take_of_all hrun hpart
        rw [hser, List.length_cons, List.length_cons]
        omega

/-- An extended PDU is read back from its bytes whatever follows them. -/
theorem RoundTrips.parse_append {pdu : PDU} (h : RoundTrips pdu)
    (hext : pdu.isExtended = true) (rest : List UInt8) :
    PDU.parse (pdu.serialize ++ rest) = .value pdu := by
  obtain ⟨hno, -, -⟩ | ⟨hdr, hhdr, hfc, hcoh⟩ := h.cases
  · rw [hno] at hext
    contradiction
  have hrun := yields_extendedBody .extended pdu hdr hcoh rest
  rw [serialize_extended hhdr, hcoh.version_one, List.cons_append, List.cons_append]
  obtain ⟨hnot, -⟩ | ⟨-, hlen, -⟩ | ⟨-, -, hv, -⟩ | ⟨-, -, -, heq⟩ :=
    parse_cases FunctionCode.extended.byte
    (1 :: (([hiByte hdr.flags.bits, loByte hdr.flags.bits] ++
      ([hiByte hdr.correlationId, loByte hdr.correlationId] ++
      (timestampBytes hdr ++
        ([hdr.extFunctionCode.byte, hiByte hdr.payloadLength, loByte hdr.payloadLength] ++
      pdu.payload ++ hmacBytes hdr pdu.hmac)))) ++ rest))
  · exact absurd (Or.inl rfl) hnot
  · simp at hlen
    omega
  · exact absurd rfl hv
  · rw [heq, List.tail_cons, hrun, ← hfc, ← hhdr]
    rfl

/-! ### Views that are too long -/

/-- Two views of the same place, the second said to cover at least as much. -/
structure Longer (raw raw' : Span UInt8) : Prop where
  buf : raw'.buf = raw.buf
  off : raw'.off = raw.off
  size : raw.size ≤ raw'.size

section Longer

variable {raw raw' : Span UInt8} {pdu : PDU}

theorem Longer.read (h : Longer raw raw') (i : ℕ) : raw'.read i = raw.read i := by
  rw [Span.read, Span.read, h.buf, h.off]

theorem Longer.copy (h : Longer raw raw') (i j : ℕ) : raw'.copy i j = raw.copy i j := by
  rw [Span.copy, Span.copy, h.buf, h.off]

theorem Longer.copyN (h : Longer raw raw') (i n : ℕ) : raw'.copyN i n = raw.copyN i n := by
  obtain ⟨buf, off, size⟩ := raw
  obtain ⟨buf', off', size'⟩ := raw'
  obtain ⟨rfl, rfl, -⟩ := h
  rfl

theorem fail_ne_value {e : ErrorCode} :
    (Except.ok (.fail e) : Checked (Result PDU)) ≠ .ok (.value pdu) := by
  simp [Result.fail]

/-- A length check that the shorter view passes, the longer one passes too. -/
theorem Longer.check (h : Longer raw raw') {n : ℕ} {e : ErrorCode} {x x' : Checked (Result PDU)}
    (hx : x = .ok (.value pdu) → x' = .ok (.value pdu))
    (hval : (if raw.size < n then Except.ok (.fail e) else x) = .ok (.value pdu)) :
    (if raw'.size < n then Except.ok (.fail e) else x') = .ok (.value pdu) := by
  have hsize := h.size
  split_ifs at hval with hshort
  · exact absurd hval fail_ne_value
  · rw [if_neg (by omega)]
    exact hx hval

theorem Longer.deserializeHmac (h : Longer raw raw') {fc : FunctionCode}
    {hdr : FrameHeader} {payload : List UInt8} {offset : ℕ}
    (hval : PDU.deserializeHmac raw fc hdr payload offset = .ok (.value pdu)) :
    PDU.deserializeHmac raw' fc hdr payload offset = .ok (.value pdu) := by
  cases hflag : hdr.flags.has .hasHMAC with
  | false =>
    simp only [PDU.deserializeHmac, hflag, Bool.false_eq_true, if_false] at hval ⊢
    exact hval
  | true =>
    simp only [PDU.deserializeHmac, hflag, if_true, pure_eq_ok] at hval ⊢
    exact h.check (fun hx => by rw [h.copyN]; exact hx) hval

theorem Longer.deserializePayload (h : Longer raw raw') {fc : FunctionCode}
    {hdr : FrameHeader} {offset : ℕ}
    (hval : PDU.deserializePayload raw fc hdr offset = .ok (.value pdu)) :
    PDU.deserializePayload raw' fc hdr offset = .ok (.value pdu) := by
  simp only [PDU.deserializePayload, pure_eq_ok, h.read, h.copy] at hval ⊢
  refine h.check (fun hx => ?_) hval
  obtain ⟨extFc, hfc, hx⟩ := bind_eq_ok.mp hx
  obtain ⟨hi, hhi, hx⟩ := bind_eq_ok.mp hx
  obtain ⟨lo, hlo, hx⟩ := bind_eq_ok.mp hx
  rw [hfc, ok_bind, hhi, ok_bind, hlo, ok_bind]
  refine h.check (fun hx => ?_) hx
  obtain ⟨payload, hpayload, hx⟩ := bind_eq_ok.mp hx
  rw [hpayload, ok_bind]
  exact h.deserializeHmac hx

theorem Longer.deserializeTimestamp (h : Longer raw raw') {fc : FunctionCode}
    {hdr : FrameHeader} {offset : ℕ}
    (hval : PDU.deserializeTimestamp raw fc hdr offset = .ok (.value pdu)) :
    PDU.deserializeTimestamp raw' fc hdr offset = .ok (.value pdu) := by
  cases hflag : hdr.flags.has .hasTimestamp with
  | false =>
    simp only [PDU.deserializeTimestamp, hflag, Bool.false_eq_true, if_false] at hval ⊢
    exact h.deserializePayload hval
  | true =>
    simp only [PDU.deserializeTimestamp, hflag, if_true, pure_eq_ok, h.copyN] at hval ⊢
    refine h.check (fun hx => ?_) hval
    obtain ⟨ts, hts, hx⟩ := bind_eq_ok.mp hx
    rw [hts, ok_bind]
    exact h.deserializePayload hx

/-- An extended PDU is decoded alike from a view that goes on behind it. -/
theorem Longer.deserialize (h : Longer raw raw') (hval : PDU.deserialize raw = .ok (.value pdu))
    (hext : pdu.isExtended = true) : PDU.deserialize raw' = .ok (.value pdu) := by
  simp only [PDU.deserialize, pure_eq_ok, h.read] at hval ⊢
  refine h.check (fun hx => ?_) hval
  obtain ⟨fc, hfc, hx⟩ := bind_eq_ok.mp hx
  rw [hfc, ok_bind]
  by_cases hmark : FunctionCode.IsExtended ⟨fc⟩
  · rw [if_neg (not_not.mpr hmark)] at hx ⊢
    refine h.check (fun hx => ?_) hx
    obtain ⟨version, hversion, hx⟩ := bind_eq_ok.mp hx
    rw [hversion, ok_bind]
    split_ifs at hx with hv
    · exact absurd hx fail_ne_value
    · rw [if_neg hv]
      obtain ⟨f₁, hf₁, hx⟩ := bind_eq_ok.mp hx
      obtain ⟨f₀, hf₀, hx⟩ := bind_eq_ok.mp hx
      obtain ⟨c₁, hc₁, hx⟩ := bind_eq_ok.mp hx
      obtain ⟨c₀, hc₀, hx⟩ := bind_eq_ok.mp hx
      rw [hf₁, ok_bind, hf₀, ok_bind, hc₁, ok_bind, hc₀, ok_bind]
      exact h.deserializeTimestamp hx
  · rw [if_pos hmark] at hx
    obtain ⟨data, -, hx⟩ := bind_eq_ok.mp hx
    rw [Except.ok.injEq, Result.value.injEq] at hx
    rw [← hx] at hext
    contradiction

end Longer

end ModbusPp.PDU

import ModbusPp.Core.PduRoundTrip

/-! Extended PDUs the wire changes silently. `make_extended` takes payloads that
do not fit the length field and flags that announce a timestamp or a digest that
is not there; `WireSafe` is the exact condition under which no such PDU decodes
to a different one. -/

namespace ModbusPp.PDU

open Foundation

variable {header : FrameHeader} {payload : List UInt8} {hmac : Option HMACDigest}

/-- The received PDU has the flags, correlation id, timestamp, extended function
code, payload and digest of the one that was sent. -/
def SameFields (sent received : PDU) : Prop :=
  ∃ hdr hdr', sent.extHeader = some hdr ∧ received.extHeader = some hdr' ∧ hdr'.flags = hdr.flags ∧
    hdr'.correlationId = hdr.correlationId ∧ hdr'.timestamp = hdr.timestamp ∧
    hdr'.extFunctionCode = hdr.extFunctionCode ∧ received.payload = sent.payload ∧
    received.hmac = sent.hmac

/-- The bytes of an extended frame after its length field. -/
def frameTail (payload : List UInt8) (hmac : Option HMACDigest) : List UInt8 :=
  payload ++ (hmac.map Block.toList).getD []

/-- The constructor arguments the wire does not change silently. With the
timestamp flag set and no timestamp the decoder takes the eight bytes from the
function code on for the timestamp, so the frame must be too short for the
length it then reads; otherwise the payload must fit the length field. -/
def WireSafe (header : FrameHeader) (payload : List UInt8) (hmac : Option HMACDigest) : Prop :=
  if header.flags.has .hasTimestamp = true ∧ header.timestamp = none then
    ∀ hi lo, (frameTail payload hmac)[6]? = some hi → (frameTail payload hmac)[7]? = some lo →
      (frameTail payload hmac).length < 8 + hmacSize (extendedFlags header hmac) +
        (word hi lo).toNat
  else payload.length ≤ 65535

theorem hmacBytes_stored (header : FrameHeader) (payload : List UInt8) (hmac : Option HMACDigest) :
    hmacBytes (storedHeader header payload hmac) hmac = (hmac.map Block.toList).getD [] := by
  cases hmac with
  | none => simp [hmacBytes]
  | some digest => simp [hmacBytes, storedHeader, extendedFlags_hmac]

theorem accepted_makeExtended (hv : header.version = 1) :
    Accepted (makeExtended header payload hmac).serialize ↔
      ∃ hi lo, (timestampBytes (storedHeader header payload hmac) ++
          ([header.extFunctionCode.byte, hiByte (UInt16.ofNat payload.length),
            loByte (UInt16.ofNat payload.length)] ++
            frameTail payload hmac))[1 + timestampSize (extendedFlags header hmac)]? = some hi ∧
        (timestampBytes (storedHeader header payload hmac) ++
          ([header.extFunctionCode.byte, hiByte (UInt16.ofNat payload.length),
            loByte (UInt16.ofNat payload.length)] ++
            frameTail payload hmac))[2 + timestampSize (extendedFlags header hmac)]? = some lo ∧
        timestampSize (extendedFlags header hmac) + hmacSize (extendedFlags header hmac) +
          (word hi lo).toNat ≤
          (timestampBytes (storedHeader header payload hmac)).length +
            (frameTail payload hmac).length := by
  have hser := serialize_extended (makeExtended_header header payload hmac)
  have hflags : (⟨word (hiByte (storedHeader header payload hmac).flags.bits)
      (loByte (storedHeader header payload hmac).flags.bits)⟩ : FrameFlag) =
        extendedFlags header hmac := by
    rw [word_bytes]; rfl
  have hmarked : FunctionCode.IsExtended ⟨FunctionCode.extended.byte⟩ := Or.inl rfl
  have hacc (zs : List UInt8) : Accepted (FunctionCode.extended.byte :: zs) ↔
      ExtendedAccepted (FunctionCode.extended.byte :: zs) := by simp [Accepted, hmarked]
  rw [hser, hacc]
  simp only [List.cons_append, List.nil_append]
  rw [extendedAccepted_cons, extendedBody_run, hflags]
  have htail :
    (makeExtended header payload hmac).payload ++ hmacBytes (storedHeader header payload hmac)
      (makeExtended header payload hmac).hmac = frameTail payload hmac := by
    rw [frameTail, ← hmacBytes_stored header payload hmac]; rfl
  rw [htail]
  simp only [storedHeader, List.length_append, List.length_cons]
  constructor
  · rintro ⟨-, -, hi, lo, h₁, h₂, hle⟩
    exact ⟨hi, lo, h₁, h₂, by omega⟩
  · rintro ⟨hi, lo, h₁, h₂, hle⟩
    exact ⟨by omega, hv, hi, lo, h₁, h₂, by omega⟩

/-- With flag and timestamp in agreement a too long payload is accepted, and a
payload that fits is accepted only with its digest. -/
theorem accepted_agreeing (hv : header.version = 1)
    (hts : header.flags.has .hasTimestamp = true → header.timestamp.isSome = true) :
    Accepted (makeExtended header payload hmac).serialize ↔
      (header.flags.has .hasHMAC = true → hmac.isSome = true) ∨ 65535 < payload.length := by
  have hflag : timestampSize (extendedFlags header hmac) =
      (timestampBytes (storedHeader header payload hmac)).length := by
    rw [timestampSize, timestampBytes, storedHeader, extendedFlags_timestamp]
    cases hf : header.flags.has .hasTimestamp <;> cases ht : header.timestamp <;> simp_all
  rw [accepted_makeExtended hv, hflag]
  generalize timestampBytes (storedHeader header payload hmac) = ts
  have hskip (ys : List UInt8) (k : ℕ) : (ts ++ ys)[k + ts.length]? = ys[k]? := by
    rw [List.getElem?_append_right (by omega), Nat.add_sub_cancel]
  simp only [hskip, List.cons_append, List.nil_append, List.getElem?_cons_succ,
    List.getElem?_cons_zero, Option.some.injEq, exists_and_left, exists_eq_left', word_bytes,
    UInt16.toNat_ofNat']
  have htail :
      (frameTail payload hmac).length = payload.length + if hmac.isSome then 32 else 0 := by
    cases hmac <;> simp [frameTail]
  rw [htail, hmacSize, extendedFlags_hmac]
  cases hf : header.flags.has .hasHMAC <;> cases hmac <;> simp <;> omega

/-- With the timestamp flag set and no timestamp the decoder reads the length
field out of the payload. -/
theorem accepted_shifted (hv : header.version = 1) (hf : header.flags.has .hasTimestamp = true)
    (hts : header.timestamp = none) :
    Accepted (makeExtended header payload hmac).serialize ↔
      ∃ hi lo, (frameTail payload hmac)[6]? = some hi ∧ (frameTail payload hmac)[7]? = some lo ∧
        8 + hmacSize (extendedFlags header hmac) +
          (word hi lo).toNat ≤ (frameTail payload hmac).length := by
  have hflag : timestampSize (extendedFlags header hmac) = 8 := by
    rw [timestampSize, extendedFlags_timestamp, hf, Bool.true_or, if_pos rfl]
  have hbytes : timestampBytes (storedHeader header payload hmac) = [] := by
    simp [timestampBytes, storedHeader, hts]
  rw [accepted_makeExtended hv, hflag, hbytes]
  simp

theorem sameFields_refl (header : FrameHeader) (payload : List UInt8) (hmac : Option HMACDigest) :
    SameFields (makeExtended header payload hmac) (makeExtended header payload hmac) :=
  ⟨_, _, rfl, rfl, rfl, rfl, rfl, rfl, rfl, rfl⟩

theorem payload_le_of_onWire {pdu : PDU} {hdr : FrameHeader} (h : pdu.OnWire)
    (hhdr : pdu.extHeader = some hdr) :
    pdu.payload.length ≤ 65535 := by
  rw [OnWire, hhdr] at h
  have hlt := hdr.payloadLength.toNat_lt
  rw [h.2.length_field]
  omega

theorem accepted_iff_value (xs : List UInt8) : Accepted xs ↔ ∃ pdu, parse xs = .value pdu := by
  rw [← parse_hasValue]
  cases parse xs <;> simp [Result.hasValue]

/-- With the timestamp flag set and no timestamp, whatever is decoded has a
timestamp that the sent PDU has not. -/
theorem changed_of_unstamped (hf : header.flags.has .hasTimestamp = true)
    (hts : header.timestamp = none) {pdu : PDU}
    (hpdu : parse (makeExtended header payload hmac).serialize = .value pdu) :
    ¬SameFields (makeExtended header payload hmac) pdu := by
  rintro ⟨hdr, hdr', h₁, h₂, hflags, -, hstamp, -⟩
  rw [makeExtended_header, Option.some.injEq] at h₁
  subst h₁
  have hwire := parse_onWire hpdu
  rw [OnWire, h₂] at hwire
  have hsome := hwire.2.timestamp_flag
  rw [hstamp, hflags] at hsome
  simp only [storedHeader, hts, Option.isSome_none, extendedFlags_timestamp, hf,
    Bool.true_or] at hsome
  contradiction

/-- With flag and timestamp in agreement, what is decoded is what was sent unless
the payload is too long for its length field. -/
theorem unchanged_agreeing_iff (hv : header.version = 1)
    (hts : header.flags.has .hasTimestamp = true → header.timestamp.isSome = true) :
    (∀ pdu, parse (makeExtended header payload hmac).serialize = .value pdu →
      SameFields (makeExtended header payload hmac) pdu) ↔ payload.length ≤ 65535 := by
  constructor
  · intro h
    by_contra hlong
    obtain ⟨pdu, hpdu⟩ :=
      (accepted_iff_value _).mp ((accepted_agreeing hv hts).mpr (Or.inr (Nat.not_le.mp hlong)))
    obtain ⟨_, _, -, hhdr, -, -, -, -, hpayload, -⟩ := h pdu hpdu
    have hle := payload_le_of_onWire (parse_onWire hpdu) hhdr
    rw [hpayload] at hle
    exact hlong hle
  · intro hlen pdu hpdu
    have hmac_flag :=
      ((accepted_agreeing hv hts).mp ((accepted_iff_value _).mpr ⟨pdu, hpdu⟩)).resolve_right
        (by omega)
    have hback := parse_serialize (makeExtended_onWire hv hts hmac_flag hlen)
      (show FunctionCode.extended ≠ .extendedStream by decide)
    rw [hback, Result.value.injEq] at hpdu
    rw [← hpdu]
    exact sameFields_refl header payload hmac

/-- No extended PDU is silently changed by the wire exactly under `WireSafe`. -/
theorem makeExtended_unchanged_iff (header : FrameHeader) (payload : List UInt8)
    (hmac : Option HMACDigest) (hv : header.version = 1) :
    (∃ r, deserialize (.ofList (makeExtended header payload hmac).serialize) = .ok r ∧
      ∀ pdu, r = .value pdu → SameFields (makeExtended header payload hmac) pdu) ↔
    WireSafe header payload hmac := by
  rw [deserialize_ofList]
  simp only [Except.ok.injEq, exists_eq_left']
  rw [WireSafe]
  split_ifs with hcase
  · -- the decoded PDU would be changed, so it must not decode
    have hrej : (∀ pdu, parse (makeExtended header payload hmac).serialize = .value pdu →
        SameFields (makeExtended header payload hmac) pdu) ↔
        ¬Accepted (makeExtended header payload hmac).serialize := by
      rw [accepted_iff_value, not_exists]
      exact forall_congr' fun pdu =>
        ⟨fun h hpdu => changed_of_unstamped hcase.1 hcase.2 hpdu (h hpdu),
          fun h hpdu => absurd hpdu h⟩
    rw [hrej, accepted_shifted hv hcase.1 hcase.2]
    push Not
    rfl
  · refine unchanged_agreeing_iff hv fun hf => Option.isSome_iff_ne_none.mpr fun hnone => ?_
    exact hcase ⟨hf, hnone⟩

theorem makeExtended_unchanged_empty :
    ∃ r, deserialize (.ofList (makeExtended { flags := .hasTimestamp } [] none).serialize) = .ok r ∧
      ∀ pdu, r = .value pdu → SameFields (makeExtended { flags := .hasTimestamp } [] none) pdu :=
  (makeExtended_unchanged_iff { flags := .hasTimestamp } [] none rfl).mpr
    (by simp [WireSafe, frameTail])

/-- The frame of a header that announces a timestamp it has not: the decoder
takes the function code, the length and five payload bytes for the timestamp and
returns an empty payload. -/
theorem makeExtended_changed :
    ¬∃ r, deserialize
      (.ofList (makeExtended { flags := .hasTimestamp } (List.replicate 8 0)).serialize) = .ok r ∧
      ∀ pdu, r = .value pdu →
        SameFields (makeExtended { flags := .hasTimestamp } (List.replicate 8 0)) pdu := by
  rintro ⟨r, hr, h⟩
  obtain rfl : Result.value ⟨.extended,
    some { flags := .hasTimestamp, timestamp := some ⟨8796093022208⟩ }, [], none⟩ = r := by
    have hval : deserialize
      (.ofList (makeExtended { flags := .hasTimestamp } (List.replicate 8 0)).serialize) =
      .ok (.value ⟨.extended, some { flags := .hasTimestamp, timestamp := some ⟨8796093022208⟩ },
        [], none⟩) := by decide
    rw [hval] at hr
    exact Except.ok.inj hr
  obtain ⟨hdr, hdr', hsent, hgot, -, -, hstamp, -⟩ := h _ rfl
  cases hsent
  cases hgot
  contradiction

end ModbusPp.PDU

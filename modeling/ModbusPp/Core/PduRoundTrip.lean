import ModbusPp.Core.PduAcceptance

/-! Serialising a PDU the wire can carry and reading it back gives the PDU. The
constructors produce such PDUs when the presence flags are not set without their
field and the payload fits the 16-bit length field. -/

namespace ModbusPp.PDU

open Foundation Foundation.Reader

/-! ### Reading back the parts -/

theorem yields_hmacPart (fc : FunctionCode) (hdr : FrameHeader)
    (payload : List UInt8) (hmac : Option HMACDigest)
    (hflag : hmac.isSome = hdr.flags.has .hasHMAC) :
    Yields (hmacPart fc hdr payload) (hmacBytes hdr hmac) ⟨fc, some hdr, payload, hmac⟩ := by
  unfold hmacPart hmacBytes
  rw [← hflag]
  cases hmac with
  | none => exact (yields_absent _).bind (Yields.pure _)
  | some digest =>
    have h := (yields_takeN digest).present.bind
      (f := fun m => pure (⟨fc, some hdr, payload, m⟩ : PDU)) (Yields.pure _)
    rwa [List.append_nil] at h

theorem yields_payloadPart (fc : FunctionCode) (hdr : FrameHeader)
    (e : ExtendedFunctionCode) (n : UInt16) (payload : List UInt8)
    (hmac : Option HMACDigest) (hlen : payload.length = n.toNat)
    (hflag : hmac.isSome = hdr.flags.has .hasHMAC) :
    Yields (payloadPart fc hdr) ([e.byte, hiByte n, loByte n] ++ payload ++ hmacBytes hdr hmac)
      ⟨fc, some { hdr with extFunctionCode := e, payloadLength := n }, payload, hmac⟩ := by
  have hhmac :=
    yields_hmacPart fc { hdr with extFunctionCode := e, payloadLength := n } payload hmac hflag
  have hpayload := (yields_takeN (⟨payload, hlen⟩ : Block UInt8 n.toNat)).bind
    (f := fun p => hmacPart fc { hdr with extFunctionCode := e, payloadLength := n } p.toList) hhmac
  have hword := (yields_wordField n).bind (f := fun length => do
    let p ← takeN length.toNat
    hmacPart fc { hdr with extFunctionCode := e, payloadLength := length } p.toList) hpayload
  exact (yields_next e.byte).bind hword

theorem yields_timestampPart (fc : FunctionCode) (hdr : FrameHeader) (payload : List UInt8)
    (hmac : Option HMACDigest) (hts : hdr.timestamp.isSome = hdr.flags.has .hasTimestamp)
    (hlen : payload.length = hdr.payloadLength.toNat)
    (hflag : hmac.isSome = hdr.flags.has .hasHMAC) :
    Yields (timestampPart fc
      { version := hdr.version, flags := hdr.flags, correlationId := hdr.correlationId })
      (timestampBytes hdr ++
        ([hdr.extFunctionCode.byte, hiByte hdr.payloadLength, loByte hdr.payloadLength] ++
        payload ++ hmacBytes hdr hmac))
      ⟨fc, some hdr, payload, hmac⟩ := by
  have hpart (ts : Option Timestamp) := yields_payloadPart fc
    { version := hdr.version, flags := hdr.flags, correlationId := hdr.correlationId,
      timestamp := ts }
    hdr.extFunctionCode hdr.payloadLength payload hmac hlen hflag
  obtain ⟨version, flags, correlationId, ts, e, n⟩ := hdr
  simp only at hts hpart ⊢
  unfold timestampPart timestampBytes
  simp only [← hts]
  cases ts with
  | none => exact (yields_absent _).bind (hpart none)
  | some t =>
    have hread := ((yields_takeN t.serialize).map Timestamp.deserialize).present
    rw [Timestamp.deserialize_serialize] at hread
    exact hread.bind (hpart (some t))

theorem yields_extendedBody (fc : FunctionCode) (pdu : PDU) (hdr : FrameHeader)
    (h : Coherent pdu hdr) :
    Yields (extendedBody fc)
      ([hiByte hdr.flags.bits, loByte hdr.flags.bits] ++
        ([hiByte hdr.correlationId, loByte hdr.correlationId] ++
        (timestampBytes hdr ++
          ([hdr.extFunctionCode.byte, hiByte hdr.payloadLength, loByte hdr.payloadLength] ++
        pdu.payload ++ hmacBytes hdr pdu.hmac))))
      ⟨fc, some hdr, pdu.payload, pdu.hmac⟩ := by
  have hts := yields_timestampPart fc hdr pdu.payload pdu.hmac h.timestamp_flag
    h.length_field h.hmac_flag
  rw [h.version_one] at hts
  exact (yields_wordField hdr.flags.bits).bind ((yields_wordField hdr.correlationId).bind hts)

/-- What `serialize` writes for an extended PDU, grouped as the readers take it. -/
theorem serialize_extended {pdu : PDU} {hdr : FrameHeader} (h : pdu.extHeader = some hdr) :
    pdu.serialize = FunctionCode.extended.byte :: hdr.version ::
      ([hiByte hdr.flags.bits, loByte hdr.flags.bits] ++
        ([hiByte hdr.correlationId, loByte hdr.correlationId] ++
        (timestampBytes hdr ++
          ([hdr.extFunctionCode.byte, hiByte hdr.payloadLength, loByte hdr.payloadLength] ++
        pdu.payload ++ hmacBytes hdr pdu.hmac)))) := by
  simp [serialize, h]

/-- A PDU the wire can carry is read back from its bytes. The writer always uses
the `0x6E` marker, so the stream marker is left out here. -/
theorem parse_serialize {pdu : PDU} (h : pdu.OnWire) (hfc : pdu.functionCode ≠ .extendedStream) :
    parse pdu.serialize = .value pdu := by
  obtain ⟨fc, hdr, payload, hmac⟩ := pdu
  cases hdr with
  | none =>
    obtain ⟨hext, hhmac⟩ := h
    simp only at hext hhmac
    simp [serialize, parse, hext, hhmac, makeStandard]
  | some hdr =>
    obtain ⟨hext, hc⟩ := h
    obtain rfl : fc = .extended := hext.resolve_right hfc
    rw [serialize_extended rfl]
    obtain ⟨hnot, -⟩ | ⟨-, hlen, -⟩ | ⟨-, -, hv, -⟩ | ⟨-, -, -, heq⟩ :=
      parse_cases FunctionCode.extended.byte
      (hdr.version :: ([hiByte hdr.flags.bits, loByte hdr.flags.bits] ++
        ([hiByte hdr.correlationId, loByte hdr.correlationId] ++ (timestampBytes hdr ++
        ([hdr.extFunctionCode.byte, hiByte hdr.payloadLength, loByte hdr.payloadLength] ++
        payload ++ hmacBytes hdr hmac)))))
    · exact absurd (Or.inl rfl) hnot
    · simp at hlen
      omega
    · simp [hc.version_one] at hv
    · have hrun := yields_extendedBody .extended ⟨.extended, some hdr, payload, hmac⟩ hdr hc []
      rw [List.append_nil] at hrun
      rw [heq, List.tail_cons]
      exact congrArg verdict hrun

/-! ### What the constructors build -/

theorem makeStandard_onWire {fc : FunctionCode} (hfc : ¬fc.IsExtended) (data : List UInt8) :
    (makeStandard fc data).OnWire := ⟨hfc, rfl⟩

theorem extendedFlags_timestamp (header : FrameHeader) (hmac : Option HMACDigest) :
    (extendedFlags header hmac).has .hasTimestamp =
      (header.flags.has .hasTimestamp || header.timestamp.isSome) := by
  have hdis (f : FrameFlag) : (f ||| .hasHMAC).has .hasTimestamp = f.has .hasTimestamp :=
    FrameFlag.has_or_of_disjoint f _ _ (by decide)
  have hset : (header.flags ||| .hasTimestamp).has .hasTimestamp = true :=
    FrameFlag.has_or_self header.flags _ (by decide)
  cases hmac <;> cases hts : header.timestamp <;> simp [extendedFlags, hts, hdis, hset]

theorem extendedFlags_hmac (header : FrameHeader) (hmac : Option HMACDigest) :
    (extendedFlags header hmac).has .hasHMAC = (header.flags.has .hasHMAC || hmac.isSome) := by
  have hdis : (header.flags ||| .hasTimestamp).has .hasHMAC = header.flags.has .hasHMAC :=
    FrameFlag.has_or_of_disjoint header.flags _ _ (by decide)
  have hset (f : FrameFlag) : (f ||| .hasHMAC).has .hasHMAC = true :=
    FrameFlag.has_or_self f _ (by decide)
  cases hmac <;> cases hts : header.timestamp <;> simp [extendedFlags, hts, hdis, hset]

/-- The header stored by `make_extended`. -/
def storedHeader (header : FrameHeader) (payload : List UInt8)
    (hmac : Option HMACDigest) : FrameHeader :=
  { header with payloadLength := UInt16.ofNat payload.length, flags := extendedFlags header hmac }

theorem makeExtended_header (header : FrameHeader) (payload : List UInt8)
    (hmac : Option HMACDigest) :
    (makeExtended header payload hmac).extHeader = some (storedHeader header payload hmac) := rfl

variable {header : FrameHeader} {payload : List UInt8} {hmac : Option HMACDigest}

theorem makeExtended_coherent (hv : header.version = 1)
    (hts : header.flags.has .hasTimestamp = true → header.timestamp.isSome = true)
    (hmac_flag : header.flags.has .hasHMAC = true → hmac.isSome = true)
    (hlen : payload.length ≤ 65535) :
    Coherent (makeExtended header payload hmac) (storedHeader header payload hmac) where
  version_one := hv
  timestamp_flag := by
    rw [storedHeader, extendedFlags_timestamp]
    cases h : header.flags.has .hasTimestamp <;> simp_all
  hmac_flag := by
    rw [storedHeader, extendedFlags_hmac]
    cases h : header.flags.has .hasHMAC <;> simp_all [makeExtended]
  length_field := by
    simp only [storedHeader, makeExtended, UInt16.toNat_ofNat']
    omega

theorem makeExtended_onWire (hv : header.version = 1)
    (hts : header.flags.has .hasTimestamp = true → header.timestamp.isSome = true)
    (hmac_flag : header.flags.has .hasHMAC = true → hmac.isSome = true)
    (hlen : payload.length ≤ 65535) :
    (makeExtended header payload hmac).OnWire :=
  ⟨Or.inl rfl, makeExtended_coherent hv hts hmac_flag hlen⟩

/-- Without the optional fields there are nine bytes around the payload. -/
theorem length_serialize_plain (extFunctionCode : ExtendedFunctionCode) (payload : List UInt8) :
    (makeExtended { extFunctionCode } payload).serialize.length = payload.length + 9 := by
  rw [serialize_extended (makeExtended_header { extFunctionCode } payload none)]
  simp [timestampBytes, hmacBytes, storedHeader, extendedFlags, makeExtended]

/-- A timestamp adds eight more. -/
theorem length_serialize_unsigned (header : FrameHeader) (payload : List UInt8) :
    (makeExtended header payload).serialize.length ≤ payload.length + 17 := by
  have hts (hdr : FrameHeader) : (timestampBytes hdr).length ≤ 8 := by
    unfold timestampBytes
    split <;> simp
  have hhmac (hdr : FrameHeader) : hmacBytes hdr none = [] := by
    unfold hmacBytes
    split <;> simp_all
  have hle := hts (storedHeader header payload none)
  rw [serialize_extended (makeExtended_header header payload none)]
  simp only [makeExtended, hhmac, List.length_cons, List.length_append, List.length_nil]
  omega

end ModbusPp.PDU

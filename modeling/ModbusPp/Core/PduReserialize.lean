import ModbusPp.Core.PduRoundTrip

/-! Decoding a frame and writing the PDU again. Every part of the grammar prints what it
takes, so the bytes after the marker come back whatever they are. The marker itself is
always written as `0x6E`, and a frame that had the stream marker comes back with another
function code. -/

namespace ModbusPp.PDU

open Foundation Foundation.Reader

/-! ### The parts print what they take -/

theorem prints_timestamp :
    Prints (Timestamp.deserialize <$> takeN 8) fun ts => ts.serialize.toList :=
  (prints_takeN 8).map fun block => by rw [Timestamp.serialize_deserialize]

theorem timestampField_run_some (hdr : FrameHeader) {ys rest : List UInt8} {ts : Option Timestamp}
    (h : (whenSet (hdr.flags.has .hasTimestamp) (Timestamp.deserialize <$> takeN 8)).run ys =
      some (ts, rest)) :
    ys = timestampBytes { hdr with timestamp := ts } ++ rest := by
  rw [prints_timestamp.whenSet _ ys ts rest h]
  have hflag := isSome_of_whenSet h
  cases ts <;> simp [timestampBytes, ← hflag]

theorem hmacPart_run_some {fc : FunctionCode} {hdr : FrameHeader}
    {payload ys rest : List UInt8} {pdu : PDU}
    (h : (hmacPart fc hdr payload).run ys = some (pdu, rest)) :
    ∃ hmac, pdu = ⟨fc, some hdr, payload, hmac⟩ ∧ ys = hmacBytes hdr hmac ++ rest := by
  obtain ⟨hmac, zs, hfield, h⟩ := run_bind_some.mp h
  cases h
  refine ⟨hmac, rfl, ?_⟩
  rw [(prints_takeN 32).whenSet _ ys hmac rest hfield]
  have hflag := isSome_of_whenSet hfield
  cases hmac <;> simp [hmacBytes, ← hflag]

theorem payloadPart_run_some {fc : FunctionCode} {hdr : FrameHeader}
    {ys rest : List UInt8} {pdu : PDU} (h : (payloadPart fc hdr).run ys = some (pdu, rest)) :
    ∃ e n payload hmac,
      pdu = ⟨fc, some { hdr with extFunctionCode := e, payloadLength := n }, payload, hmac⟩ ∧
      payload.length = n.toNat ∧
      ys = [e.byte, hiByte n, loByte n] ++ payload ++ hmacBytes hdr hmac ++ rest := by
  obtain ⟨e, zs, he, h⟩ := run_bind_some.mp h
  obtain ⟨n, us, hn, h⟩ := run_bind_some.mp h
  obtain ⟨payload, vs, hpayload, h⟩ := run_bind_some.mp h
  obtain ⟨hmac, rfl, hvs⟩ := hmacPart_run_some h
  refine ⟨⟨e⟩, n, payload.toList, hmac, rfl, payload.length_toList, ?_⟩
  rw [prints_next _ _ _ he, prints_wordField _ _ _ hn, prints_takeN _ _ _ _ hpayload, hvs]
  simp only [List.cons_append, List.nil_append, List.append_assoc]
  rfl

theorem extendedBody_run_some {fc : FunctionCode} {ys rest : List UInt8} {pdu : PDU}
    (h : (extendedBody fc).run ys = some (pdu, rest)) :
    pdu.serialize ++ rest = FunctionCode.extended.byte :: 1 :: ys := by
  obtain ⟨flags, zs, hflags, h⟩ := run_bind_some.mp h
  obtain ⟨corr, us, hcorr, h⟩ := run_bind_some.mp h
  obtain ⟨ts, vs, hts, h⟩ := run_bind_some.mp h
  obtain ⟨e, n, payload, hmac, rfl, -, hvs⟩ := payloadPart_run_some h
  have hstamp :=
    timestampField_run_some { version := 1, flags := ⟨flags⟩, correlationId := corr } hts
  rw [prints_wordField _ _ _ hflags, prints_wordField _ _ _ hcorr, hstamp, hvs,
    serialize_extended rfl]
  simp only [List.cons_append, List.nil_append, List.append_assoc]
  rfl

/-! ### Whole frames -/

/-- The part of a received byte string that its frame is. A standard frame is all of it. -/
def frameOf (raw : List UInt8) (pdu : PDU) : List UInt8 :=
  match pdu.extHeader with
  | none => raw
  | some hdr =>
      raw.take (9 + timestampSize hdr.flags + hdr.payloadLength.toNat + hmacSize hdr.flags)

/-- The PDU that was read is written as the frame that it was read from. -/
def Reserializes (raw : List UInt8) (pdu : PDU) : Prop :=
  pdu.serialize = frameOf raw pdu ∧ deserialize (.ofList pdu.serialize) = .ok (.value pdu)

theorem length_timestampBytes {hdr : FrameHeader}
    (h : hdr.timestamp.isSome = hdr.flags.has .hasTimestamp) :
    (timestampBytes hdr).length = timestampSize hdr.flags := by
  unfold timestampBytes timestampSize
  rw [← h]
  cases hdr.timestamp <;> simp

theorem length_hmacBytes {hdr : FrameHeader} {hmac : Option HMACDigest}
    (h : hmac.isSome = hdr.flags.has .hasHMAC) :
    (hmacBytes hdr hmac).length = hmacSize hdr.flags := by
  unfold hmacBytes hmacSize
  rw [← h]
  cases hmac <;> simp

theorem length_serialize {pdu : PDU} {hdr : FrameHeader}
    (hhdr : pdu.extHeader = some hdr) (h : Coherent pdu hdr) :
    pdu.serialize.length = 9 + timestampSize hdr.flags + hdr.payloadLength.toNat +
      hmacSize hdr.flags := by
  rw [serialize_extended hhdr]
  simp only [List.length_cons, List.length_append, List.length_nil,
    length_timestampBytes h.timestamp_flag, length_hmacBytes h.hmac_flag, h.length_field]
  omega

theorem serialize_of_parse {fc : UInt8} {rest : List UInt8} {pdu : PDU}
    (h : parse (fc :: rest) = .value pdu) (hext : FunctionCode.IsExtended ⟨fc⟩) :
    ∃ body tail, pdu.serialize = FunctionCode.extended.byte :: body ∧
      frameOf (fc :: rest) pdu = fc :: body ∧
      rest = body ++ tail := by
  obtain ⟨hno, -⟩ | ⟨-, -, heq⟩ | ⟨-, -, -, heq⟩ | ⟨-, hlen, hv, heq⟩ := parse_cases fc rest
  · exact absurd hext hno
  · rw [heq] at h
    cases h
  · rw [heq] at h
    cases h
  obtain ⟨hfc, hwire⟩ := parse_shape h
  rw [heq] at h
  obtain ⟨tail, hrun⟩ := verdict_eq_value.mp h
  have hserialize := extendedBody_run_some hrun
  obtain ⟨v, rest, rfl⟩ : ∃ v rest', rest = v :: rest' := List.exists_cons_of_length_pos (by omega)
  obtain rfl : v = 1 := by simpa using hv
  cases hhdr : pdu.extHeader with
  | none =>
    rw [OnWire, hhdr, hfc] at hwire
    exact absurd hext hwire.1
  | some hdr =>
    rw [OnWire, hhdr] at hwire
    obtain ⟨marker, body, hbody⟩ : ∃ marker body, pdu.serialize = marker :: body :=
      ⟨_, _, serialize_extended hhdr⟩
    rw [hbody, List.cons_append, List.tail_cons, List.cons.injEq] at hserialize
    obtain ⟨rfl, hrest⟩ := hserialize
    have hsize := length_serialize hhdr hwire.2
    refine ⟨body, tail, hbody, ?_, hrest.symm⟩
    rw [hbody, List.length_cons] at hsize
    rw [frameOf, hhdr]
    change (fc :: 1 :: rest).take _ = _
    rw [← hsize, ← hrest, List.take_succ_cons, List.take_left]

/-- What was decoded is written as it was received, and decoded to the same again, exactly
if the frame did not have the stream marker. -/
theorem reserializes_iff {raw : List UInt8} {pdu : PDU}
    (h : deserialize (.ofList raw) = .ok (.value pdu)) :
    Reserializes raw pdu ↔ raw.head? ≠ some FunctionCode.extendedStream.byte := by
  rw [deserialize_ofList, Except.ok.injEq] at h
  rcases raw with _ | ⟨fc, rest⟩
  · cases h
  rw [List.head?_cons, ne_eq, Option.some.injEq]
  obtain ⟨hfc, hwire⟩ := parse_shape h
  by_cases hext : FunctionCode.IsExtended ⟨fc⟩
  · obtain ⟨body, tail, hserialize, hframe, -⟩ := serialize_of_parse h hext
    constructor
    · rintro ⟨hsame, -⟩ rfl
      rw [hserialize, hframe, List.cons.injEq] at hsame
      exact absurd hsame.1 (by decide)
    · intro hmarker
      obtain rfl : fc = FunctionCode.extended.byte := by
        rcases hext with hext | hext
        · exact congrArg FunctionCode.byte hext
        · exact absurd (congrArg FunctionCode.byte hext) hmarker
      refine ⟨by rw [hserialize, hframe], ?_⟩
      have hplain : pdu.functionCode ≠ .extendedStream := by
        rw [hfc]
        exact fun heq => hmarker (congrArg FunctionCode.byte heq)
      rw [deserialize_ofList, parse_serialize hwire hplain]
  · have hstandard : pdu = makeStandard ⟨fc⟩ rest := by
      rw [parse, if_pos hext, Result.value.injEq] at h
      exact h.symm
    have hbytes : pdu.serialize = fc :: rest := by
      rw [hstandard]
      rfl
    have hframe : frameOf (fc :: rest) pdu = fc :: rest := by
      rw [hstandard]
      rfl
    refine iff_of_true ⟨by rw [hbytes, hframe], ?_⟩ fun hmarker =>
      hext (.inr (congrArg FunctionCode.mk hmarker))
    rw [deserialize_ofList, hbytes, h]

/-- An event notification without a payload, under either marker. -/
def notificationFrame (marker : UInt8) : List UInt8 := [marker, 1, 0, 0, 0, 0, 5, 0, 0]

theorem reserializes_notification : ∃ pdu,
    deserialize (.ofList (notificationFrame 0x6E)) = .ok (.value pdu) ∧
    Reserializes (notificationFrame 0x6E) pdu :=
  ⟨_, rfl, (reserializes_iff rfl).mpr (by decide)⟩

/-- The stream marker is read, and written as the other one. -/
theorem stream_marker_lost :
    ¬∀ raw pdu, deserialize (.ofList raw) = .ok (.value pdu) → Reserializes raw pdu := by
  intro hall
  obtain ⟨hsame, -⟩ := hall (notificationFrame 0x6F) _ rfl
  exact absurd hsame (by decide)

end ModbusPp.PDU

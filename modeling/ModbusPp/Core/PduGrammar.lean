import ModbusPp.Foundation.Reader
import ModbusPp.Core.Pdu

/-! The grammar of protocol data units as a chain of readers, and the refinement:
on a view that covers `xs`, the offset arithmetic of `deserialize` never leaves
the buffer and computes `parse xs`. -/

namespace ModbusPp.PDU

open Foundation Foundation.Reader

/-- A two-byte word. -/
def wordField : Reader UInt8 UInt16 := do
  let hi ← next
  let lo ← next
  pure (word hi lo)

def hmacPart (fc : FunctionCode) (hdr : FrameHeader) (payload : List UInt8) : Reader UInt8 PDU := do
  let hmac ← whenSet (hdr.flags.has .hasHMAC) (takeN 32)
  pure ⟨fc, some hdr, payload, hmac⟩

def payloadPart (fc : FunctionCode) (hdr : FrameHeader) : Reader UInt8 PDU := do
  let extFc ← next
  let length ← wordField
  let payload ← takeN length.toNat
  hmacPart fc { hdr with extFunctionCode := ⟨extFc⟩, payloadLength := length } payload.toList

def timestampPart (fc : FunctionCode) (hdr : FrameHeader) : Reader UInt8 PDU := do
  let ts ← whenSet (hdr.flags.has .hasTimestamp) (Timestamp.deserialize <$> takeN 8)
  payloadPart fc { hdr with timestamp := ts }

/-- What follows the version byte of an extended frame. -/
def extendedBody (fc : FunctionCode) : Reader UInt8 PDU := do
  let flags ← wordField
  let correlationId ← wordField
  timestampPart fc { version := 1, flags := ⟨flags⟩, correlationId }

/-- A reader that runs dry is an invalid frame; trailing bytes are ignored. -/
def verdict : Option (PDU × List UInt8) → Result PDU
  | some (pdu, _) => .value pdu
  | none => .fail .invalidFrame

def parse (raw : List UInt8) : Result PDU :=
  match raw with
  | [] => .fail .invalidFrame
  | fc :: rest =>
    if ¬FunctionCode.IsExtended ⟨fc⟩ then .value (makeStandard ⟨fc⟩ rest)
    else if rest.length < 8 then .fail .invalidFrame
    else if rest.head? ≠ some 1 then .fail .unsupportedVersion
    else verdict ((extendedBody ⟨fc⟩).run rest.tail)

variable {raw : Span UInt8} {xs : List UInt8}

theorem run_wordField_drop {i : ℕ} (h : i + 1 < xs.length) :
    wordField.run (xs.drop i) = some (word xs[i] xs[i + 1], xs.drop (i + 2)) := by
  simp only [wordField, StateT.run_bind, run_next_drop (show i < xs.length by omega),
    run_next_drop h, Option.bind_eq_bind, Option.bind_some, StateT.run_pure, Option.pure_def]

theorem yields_wordField (x : UInt16) : Yields wordField [hiByte x, loByte x] x := by
  have h := (yields_next (hiByte x)).bind (f := fun hi => do let lo ← next; pure (word hi lo))
    ((yields_next (loByte x)).bind (Yields.pure (word (hiByte x) (loByte x))))
  rwa [word_bytes] at h

theorem local_wordField : Local wordField :=
  local_next.bind fun _ => local_next.bind fun _ => Local.pure _

theorem prints_wordField : Prints wordField fun x => [hiByte x, loByte x] := by
  intro xs x rest h
  obtain ⟨hi, ys, hhi, h⟩ := run_bind_some.mp h
  obtain ⟨lo, zs, hlo, h⟩ := run_bind_some.mp h
  cases h
  rw [prints_next xs hi ys hhi, prints_next ys lo rest hlo]
  simp

theorem fixed_wordField : Fixed wordField 2 :=
  fixed_next.bind fun _ => fixed_next.bind fun _ => Fixed.pure _

theorem deserializeHmac_eq (h : raw.Views xs) (fc : FunctionCode) (hdr : FrameHeader)
    (payload : List UInt8) {offset : ℕ} (hoff : offset ≤ xs.length) :
    deserializeHmac raw fc hdr payload offset =
      .ok (verdict ((hmacPart fc hdr payload).run (xs.drop offset))) := by
  have hsize := h.size_eq
  cases hflag : hdr.flags.has .hasHMAC with
  | false => simp [deserializeHmac, hmacPart, hflag, whenSet, verdict]
  | true =>
    rcases Nat.lt_or_ge xs.length (offset + 32) with hlen | hlen
    · have hshort : (xs.drop offset).length < 32 := by rw [List.length_drop]; omega
      simp [deserializeHmac, hmacPart, hflag, whenSet, verdict, run_takeN_of_short hshort,
        hsize, hlen]
    · simp [deserializeHmac, hmacPart, hflag, whenSet, verdict, run_takeN_drop hlen, h.copyN hlen,
        hsize, Nat.not_lt.mpr hlen]

theorem deserializePayload_eq (h : raw.Views xs) (fc : FunctionCode)
    (hdr : FrameHeader) {offset : ℕ} (hoff : offset + 3 ≤ xs.length) :
    deserializePayload raw fc hdr offset =
      .ok (verdict ((payloadPart fc hdr).run (xs.drop offset))) := by
  have hsize := h.size_eq
  have hfc : raw.read offset = .ok xs[offset] := h.read (List.getElem?_eq_getElem (by omega))
  have hhi : raw.read (offset + 1) = .ok xs[offset + 1] :=
    h.read (List.getElem?_eq_getElem (by omega))
  have hlo : raw.read (offset + 2) = .ok xs[offset + 2] :=
    h.read (List.getElem?_eq_getElem (by omega))
  have hword : wordField.run (xs.drop (offset + 1)) =
      some (word xs[offset + 1] xs[offset + 2], xs.drop (offset + 3)) :=
        run_wordField_drop (by omega)
  simp only [deserializePayload, hsize, Nat.not_lt.mpr hoff, if_false, hfc, hhi, hlo, ok_bind]
  simp only [payloadPart, StateT.run_bind, run_next_drop (show offset < xs.length by omega), hword,
    Option.bind_eq_bind, Option.bind_some]
  generalize word xs[offset + 1] xs[offset + 2] = length
  rcases Nat.lt_or_ge xs.length (offset + 3 + length.toNat) with hlen | hlen
  · have hshort : (xs.drop (offset + 3)).length < length.toNat := by rw [List.length_drop]; omega
    simp only [hlen, if_true, run_takeN_of_short hshort, Option.bind_none, verdict, pure_eq_ok]
  · simp only [Nat.not_lt.mpr hlen, if_false, h.copy (Nat.le_add_right _ _) hlen, ok_bind,
      deserializeHmac_eq h _ _ _ hlen, run_takeN_drop hlen, Option.bind_some, Block.slice_toList,
      Nat.add_sub_cancel_left]

theorem deserializePayload_short (h : raw.Views xs) (fc : FunctionCode)
    (hdr : FrameHeader) {offset : ℕ} (hlen : xs.length < offset + 3) :
    deserializePayload raw fc hdr offset = .ok (.fail .invalidFrame) := by
  simp [deserializePayload, h.size_eq, hlen]

/-- The layout from the extended function code on needs three bytes. -/
theorem payloadPart_short (fc : FunctionCode) (hdr : FrameHeader)
    {ys : List UInt8} (hlen : ys.length < 3) :
    (payloadPart fc hdr).run ys = none := by
  match ys with
  | [] => rfl
  | [_] => rfl
  | [_, _] => rfl
  | _ :: _ :: _ :: _ => simp at hlen; omega

theorem deserializeTimestamp_eq (h : raw.Views xs) (fc : FunctionCode)
    (hdr : FrameHeader) {offset : ℕ} (hoff : offset + 3 ≤ xs.length) (hts : hdr.timestamp = none) :
    deserializeTimestamp raw fc hdr offset =
      .ok (verdict ((timestampPart fc hdr).run (xs.drop offset))) := by
  have hsize := h.size_eq
  cases hflag : hdr.flags.has .hasTimestamp with
  | false =>
    have hhdr : { hdr with timestamp := none } = hdr := by rw [← hts]
    simp [deserializeTimestamp, timestampPart, hflag, whenSet,
      deserializePayload_eq h fc hdr hoff, hhdr]
  | true =>
    rcases Nat.lt_or_ge xs.length (offset + 8) with hlen | hlen
    · have hshort : (xs.drop offset).length < 8 := by rw [List.length_drop]; omega
      simp [deserializeTimestamp, timestampPart, hflag, whenSet, verdict, run_takeN_of_short hshort,
        hsize, hlen]
    · simp only [deserializeTimestamp, timestampPart, hflag, whenSet, if_true, StateT.run_bind,
        StateT.run_map, run_takeN_drop hlen, hsize, Nat.not_lt.mpr hlen, if_false,
        h.copyN hlen, ok_bind,
        Option.bind_eq_bind, Option.map_eq_map, Option.map_some, Option.bind_some]
      rcases Nat.lt_or_ge xs.length (offset + 8 + 3) with hlen3 | hlen3
      · have hshort : (xs.drop (offset + 8)).length < 3 := by rw [List.length_drop]; omega
        rw [deserializePayload_short h _ _ hlen3, payloadPart_short _ _ hshort, verdict]
      · rw [deserializePayload_eq h _ _ hlen3]

/-- A long enough byte string begins with version, flags and correlation id. -/
theorem exists_header {rest : List UInt8} (hlen : 8 ≤ rest.length) :
    ∃ v f₁ f₀ c₁ c₀ body, rest = v :: f₁ :: f₀ :: c₁ :: c₀ :: body := by
  match rest with
  | v :: f₁ :: f₀ :: c₁ :: c₀ :: body => exact ⟨v, f₁, f₀, c₁, c₀, body, rfl⟩
  | [] | [_] | [_, _] | [_, _, _] | [_, _, _, _] => simp at hlen

/-- On a view that covers `xs` the decoder stays inside the buffer and computes
the grammar's verdict on `xs`. -/
theorem deserialize_eq (h : raw.Views xs) : deserialize raw = .ok (parse xs) := by
  have hsize := h.size_eq
  rcases xs with _ | ⟨fc, rest⟩
  · simp [deserialize, parse, hsize]
  have hfc : raw.read 0 = .ok fc := h.read rfl
  by_cases hext : FunctionCode.IsExtended ⟨fc⟩
  swap
  · have hcopy := h.copy (i := 1) (j := rest.length + 1) (by omega) (by simp)
    simp [deserialize, parse, hsize, hfc, hext, hcopy]
  rcases Nat.lt_or_ge rest.length 8 with hlen | hlen
  · simp [deserialize, parse, hsize, hfc, hext, hlen]
  obtain ⟨v, f₁, f₀, c₁, c₀, body, rfl⟩ := exists_header hlen
  have h₁ : raw.read 1 = .ok v := h.read rfl
  have h₂ : raw.read 2 = .ok f₁ := h.read rfl
  have h₃ : raw.read 3 = .ok f₀ := h.read rfl
  have h₄ : raw.read 4 = .ok c₁ := h.read rfl
  have h₅ : raw.read 5 = .ok c₀ := h.read rfl
  simp only [List.length_cons] at hlen hsize
  have hbody := deserializeTimestamp_eq h ⟨fc⟩
    { version := 1, flags := ⟨word f₁ f₀⟩, correlationId := word c₁ c₀ }
    (show 6 + 3 ≤ (fc :: v :: f₁ :: f₀ :: c₁ :: c₀ :: body).length by simp; omega) rfl
  by_cases hv : v = 1
  · subst hv
    simp only [deserialize, hsize, hfc, h₁, h₂, h₃, h₄, h₅, hext, ok_bind, not_true, if_false,
      show ¬(body.length + 1 + 1 + 1 + 1 + 1 + 1 < 1) by
        omega, Nat.not_lt.mpr (Nat.succ_le_succ hlen),
      ne_eq, hbody]
    simp [parse, hext, extendedBody, wordField, run_next_cons, StateT.run_bind]
    intro hlt
    omega
  · simp [deserialize, parse, hsize, hfc, h₁, hext, hv]
    rw [if_neg (by omega), if_neg (by omega)]

/-- Deserialising exactly a received byte string never leaves it. -/
theorem deserialize_ofList (raw : List UInt8) : deserialize (.ofList raw) = .ok (parse raw) :=
  deserialize_eq (Span.views_ofList raw)

end ModbusPp.PDU

import ModbusPp.Transport.FrameCodec

/-! The bounds of `unwrap_tcp`. The length field counts the unit id, so the PDU
has one byte less; for a length field of zero the subtraction wraps to the
largest `size_t`, passes both length checks and hands the decoder a view that
covers far more than the frame. That is the only way out of the frame. -/

namespace ModbusPp.FrameCodec

open Foundation

/-- The frames `unwrap_tcp` is meant to accept. -/
def TcpAccepted (frame : List UInt8) : Prop :=
  8 ≤ frame.length ∧ frame[2]? = some 0 ∧ frame[3]? = some 0 ∧
    2 ≤ (lengthField frame).toNat ∧ 6 + (lengthField frame).toNat ≤ frame.length ∧
    ∃ pdu, PDU.deserialize (.ofList ((frame.take (6 + (lengthField frame).toNat)).drop 7)) =
      .ok (.value pdu)

/-- The view passed to the decoder lies inside the frame, no access leaves the
frame, and the frames accepted are the intended ones. -/
def StaysInside (frame : List UInt8) : Prop :=
  (∀ transactionId unitId raw,
    unwrapHeader (.ofList frame) = .ok (.value (transactionId, unitId, raw)) → raw.Inside) ∧
  ∃ r, unwrapTcp (.ofList frame) = .ok r ∧ (r.hasValue = true ↔ TcpAccepted frame)

/-- The header passes every check and announces no bytes at all. -/
def LengthUnderflows (frame : List UInt8) : Prop :=
  8 ≤ frame.length ∧ frame[2]? = some 0 ∧ frame[3]? = some 0 ∧ lengthField frame = 0

theorem pduSlice_eq (frame : List UInt8) :
    (frame.take (6 + (lengthField frame).toNat)).drop 7 = pduSlice frame := by
  rw [List.drop_take, pduSlice]
  congr 1
  omega

theorem andThen_hasValue {α β : Type} (r : Result α) (f : α → β) :
    (r.andThen fun a => .value (f a)).hasValue = r.hasValue := by
  cases r <;> rfl

theorem inside_of_ne_zero {frame : List UInt8} (hok : HeaderOk frame)
    (hne : lengthField frame ≠ 0) :
    ((Span.ofList frame).sub 7 (pduLength (lengthField frame))).Inside := by
  have hpos : (lengthField frame).toNat ≠ 0 := fun h0 => hne (UInt16.toNat_inj.mp h0)
  have hle := hok.2.2.2
  simp only [Span.Inside, Span.sub, Span.ofList, pduLength_of_ne_zero hne]
  omega

theorem tcpAccepted_iff {frame : List UInt8} (hok : HeaderOk frame) (hne : lengthField frame ≠ 0) :
    TcpAccepted frame ↔ (PDU.parse (pduSlice frame)).hasValue = true := by
  obtain ⟨hmin, hp₁, hp₀, hle⟩ := hok
  rw [TcpAccepted, pduSlice_eq, PDU.deserialize_ofList]
  have hpos : (lengthField frame).toNat ≠ 0 := fun h0 => hne (UInt16.toNat_inj.mp h0)
  constructor
  · rintro ⟨-, -, -, -, -, pdu, hpdu⟩
    rw [Except.ok.inj hpdu]
    rfl
  · intro hvalue
    refine ⟨hmin, hp₁, hp₀, ?_, hle, ?_⟩
    · -- a length field of one leaves no byte for the PDU
      by_contra hone
      have hempty : pduSlice frame = [] := by
        rw [pduSlice, show (lengthField frame).toNat - 1 = 0 by omega, List.take_zero]
      rw [hempty] at hvalue
      contradiction
    · cases h : PDU.parse (pduSlice frame) with
      | value pdu => exact ⟨pdu, rfl⟩
      | failure ec =>
        rw [h] at hvalue
        contradiction

/-- `unwrap_tcp` keeps its bounds exactly on the frames whose length field does
not underflow; a frame's size is a `size_t`. -/
theorem unwrapTcp_staysInside_iff (frame : List UInt8) (hsize : frame.length < 2 ^ 64) :
    StaysInside frame ↔ ¬LengthUnderflows frame := by
  constructor
  · rintro ⟨hinside, -⟩ ⟨hmin, hp₁, hp₀, hzero⟩
    have hok : HeaderOk frame := ⟨hmin, hp₁, hp₀, by rw [hzero, UInt16.toNat_zero]; omega⟩
    have hview := hinside _ _ _ (by rw [unwrapHeader_eq, if_pos hok])
    simp only [Span.Inside, Span.sub, Span.ofList, hzero, pduLength_zero] at hview
    omega
  · intro hno
    have hne (hok : HeaderOk frame) : lengthField frame ≠ 0 :=
      fun h0 => hno ⟨hok.1, hok.2.1, hok.2.2.1, h0⟩
    constructor
    · intro transactionId unitId raw hraw
      rw [unwrapHeader_eq] at hraw
      split_ifs at hraw with hok
      · cases hraw
        exact inside_of_ne_zero hok (hne hok)
      · cases hraw
    · refine ⟨_, unwrapTcp_eq hne, ?_⟩
      split_ifs with hok
      · rw [andThen_hasValue, tcpAccepted_iff hok (hne hok)]
      · simp only [Result.fail, Result.hasValue, Bool.false_eq_true, false_iff]
        rintro ⟨hmin, hp₁, hp₀, -, hle, -⟩
        exact hok ⟨hmin, hp₁, hp₀, hle⟩

theorem unwrapTcp_staysInside_read : StaysInside [0, 1, 0, 0, 0, 6, 1, 3, 0, 0, 0, 1] :=
  (unwrapTcp_staysInside_iff [0, 1, 0, 0, 0, 6, 1, 3, 0, 0, 0, 1] (by decide)).mpr
    fun h => absurd h.2.2.2 (by decide)

/-- An eight-byte frame with length field zero makes the decoder copy from
outside the frame. -/
theorem unwrapTcp_leaves_frame : ¬StaysInside [0, 1, 0, 0, 0, 0, 1, 3] := by
  rintro ⟨-, r, hr, -⟩
  have hfault : unwrapTcp (.ofList [0, 1, 0, 0, 0, 0, 1, 3]) = .error .outOfRange := by decide
  rw [hfault] at hr
  cases hr

end ModbusPp.FrameCodec

import ModbusPp.Transport.TcpTransport

/-! Errors of the TCP receiver and the boundaries of the frames. Every error but a timeout
disconnects, except that of a length field of zero: it comes after the seven bytes of the
header were read, of which the frame has six, so the next receive starts one byte late. -/

namespace ModbusPp

open Foundation FrameCodec

namespace TcpTransport

/-- A receive, between the states before and after it. -/
structure Received where
  before : TcpTransport
  result : Result (List UInt8)
  after : TcpTransport

def receiveStep (_ : ℕ) (s : TcpTransport) : Checked (Received × TcpTransport) :=
  let (result, after) := s.receive
  .ok (⟨s, result, after⟩, after)

theorem receiveStep_received {timeout : ℕ} {s s' : TcpTransport} {r : Received}
    (h : receiveStep timeout s = .ok (r, s')) :
    r.before = s ∧ r.after = s' ∧ s.receive = (r.result, s') := by
  cases h
  exact ⟨rfl, rfl, rfl⟩

/-- If the receive failed, other than by a timeout, the transport is disconnected, or at the
end of the frame that it failed on. -/
def Received.InStep (r : Received) : Prop :=
  r.result.hasValue = false → r.result ≠ .fail .timeoutExpired →
    r.after.connected = false ∨ r.after.rx = r.before.rx.drop (6 + (lengthField r.before.rx).toNat)

/-- The next receive gets as far as the end of the header. -/
def GetsHeader (s : TcpTransport) : Prop :=
  s.connected = true ∧ 0 < s.poll.1 ∧ (gather read 7 7 [] s.poll.2).1.isSome = true

instance (s : TcpTransport) : Decidable s.GetsHeader := inferInstanceAs (Decidable (_ ∧ _))

variable {s s' : TcpTransport}

theorem read_conserves (asked : ℕ) (s : TcpTransport) :
    (read asked s).1 ++ (read asked s).2.rx = s.rx := by
  rw [read]
  exact List.take_append_drop _ _

theorem header_eq {header : List UInt8} (h : gather read 7 7 [] s.poll.2 = (some header, s')) :
    s.rx = header ++ s'.rx ∧ header.length = 7 := by
  obtain ⟨-, hlength⟩ := length_gather length_read_le 7 (by simp) (by simp) h
  exact ⟨(gather_conserves read_conserves 7 h).symm, hlength⟩

theorem receive_headless {result : Result (List UInt8)} (hheader : ¬s.GetsHeader)
    (h : s.receive = (result, s')) :
    result = .fail .timeoutExpired ∨ s'.connected = false := by
  simp only [receive] at h
  split_ifs at h with hconnected hfailed hnothing
  · cases h
    exact .inr (by simpa using hconnected)
  · cases h
    exact .inr rfl
  · cases h
    exact .inl rfl
  · rcases hgather : gather read 7 7 [] s.poll.2 with ⟨_ | header, s₁⟩
    · rw [hgather] at h
      cases h
      exact .inr rfl
    · refine absurd ⟨by simpa using hconnected, by omega, ?_⟩ hheader
      rw [hgather]
      rfl

/-- A receive that gets there, and finds a length field of zero, has read the header and
leaves it at that. -/
theorem receive_lengthless (hheader : s.GetsHeader) (hlength : lengthField s.rx = 0) :
    ∃ s', s.receive = (.fail .invalidFrame, s') ∧ s'.connected = true ∧
      s'.rx = s.rx.drop 7 ∧ 7 ≤ s.rx.length := by
  obtain ⟨hconnected, hpoll, hsome⟩ := hheader
  rcases hgather : gather read 7 7 [] s.poll.2 with ⟨_ | header, s₁⟩
  · rw [hgather] at hsome
    cases hsome
  obtain ⟨hrx, hseven⟩ := header_eq hgather
  have hread : ∀ (n : ℕ) (s : TcpTransport), s.connected = true → (read n s).2.connected = true :=
    fun _ _ h => h
  have hpolled : s.poll.2.connected = true := hconnected
  have hkept : s₁.connected = true := gather_keeps hread 7 hpolled hgather
  rw [hrx, lengthField_append (by omega)] at hlength
  refine ⟨s₁, ?_, hkept, by rw [hrx, ← hseven, List.drop_left],
    by rw [hrx, List.length_append]; omega⟩
  simp only [receive, hconnected, Bool.not_true, Bool.false_eq_true, if_false,
    if_neg (show ¬s.poll.1 < 0 by omega),
    if_neg (show ¬s.poll.1 = 0 by omega), hgather, hlength]
  rfl

theorem receive_lengthy {result : Result (List UInt8)} (hheader : s.GetsHeader)
    (hlength : lengthField s.rx ≠ 0) (h : s.receive = (result, s')) :
    result.hasValue = true ∨ s'.connected = false := by
  obtain ⟨hconnected, hpoll, hsome⟩ := hheader
  rcases hgather : gather read 7 7 [] s.poll.2 with ⟨_ | header, s₁⟩
  · rw [hgather] at hsome
    cases hsome
  obtain ⟨hrx, hseven⟩ := header_eq hgather
  rw [hrx, lengthField_append (by omega), ne_eq, ← UInt16.toNat_inj] at hlength
  have hpositive : ¬(lengthField header).toNat < 1 := fun hlt => hlength (Nat.lt_one_iff.mp hlt)
  simp only [receive, hconnected, Bool.not_true, Bool.false_eq_true, if_false,
    if_neg (show ¬s.poll.1 < 0 by omega),
    if_neg (show ¬s.poll.1 = 0 by omega), hgather, if_neg hpositive] at h
  rcases hbody : gather read (7 + ((lengthField header).toNat - 1))
    ((lengthField header).toNat - 1) header s₁ with
    ⟨_ | frame, s₂⟩
  · rw [hbody] at h
    cases h
    exact .inr rfl
  · rw [hbody] at h
    cases h
    exact .inl rfl

theorem Received.inStep_iff {timeout : ℕ} {r : Received} (h : receiveStep timeout s = .ok (r, s')) :
    r.InStep ↔ (r.before.GetsHeader → lengthField r.before.rx ≠ 0) := by
  obtain ⟨rfl, rfl, hreceive⟩ := receiveStep_received h
  by_cases hheader : r.before.GetsHeader
  · rw [forall_prop_of_true hheader]
    by_cases hlength : lengthField r.before.rx = 0
    · -- the header is gone, and the frame had six of its bytes
      obtain ⟨s', hfails, hconnected, hrx, hlong⟩ := receive_lengthless hheader hlength
      obtain ⟨hresult, rfl⟩ := Prod.mk.inj (hreceive.symm.trans hfails)
      refine iff_of_false (fun hin => ?_) fun hne => hne hlength
      have hat := hin (by rw [hresult]; rfl) (by rw [hresult]; decide)
      rw [hconnected, hrx, hlength, UInt16.toNat_zero] at hat
      have hlengths := congrArg List.length (hat.resolve_left (by decide))
      rw [List.length_drop, List.length_drop] at hlengths
      omega
    · refine iff_of_true (fun hfailed _ => .inl ?_) hlength
      refine (receive_lengthy hheader hlength hreceive).resolve_left ?_
      rw [hfailed]
      decide
  · refine iff_of_true (fun _ htimely => .inl ?_) fun hgets => absurd hgets hheader
    exact (receive_headless hheader hreceive).resolve_left htimely

/-- In every sequence of receives, over every stream and however it is cut, all errors but
timeouts disconnect or end at the boundary of their frame if and only if no header that a
receive comes to has a length field of zero. -/
theorem receives_in_step_iff {timeouts : List ℕ} {received : List Received}
    (hrun : runAll receiveStep timeouts s = .ok (received, s')) :
    (∀ r ∈ received, r.InStep) ↔ ∀ r ∈ received, r.before.GetsHeader →
      lengthField r.before.rx ≠ 0 := by
  obtain ⟨-, hall⟩ := runAll_keeps (fun _ => True)
    (fun r => r.InStep ↔ (r.before.GetsHeader → lengthField r.before.rx ≠ 0))
    (fun _ _ _ _ _ h => ⟨trivial, Received.inStep_iff h⟩) timeouts trivial hrun
  exact forall₂_congr hall

/-- A frame, and then the peer closes. -/
theorem receives_in_step_closed : ∃ received s',
    runAll receiveStep [0, 0]
      { rx := wrapTcp 1 (.makeStandard .readHoldingRegisters [0, 0, 0, 1]) 7 } =
      .ok (received, s') ∧
    received.map Received.result =
      [.value (wrapTcp 1 (.makeStandard .readHoldingRegisters [0, 0, 0, 1]) 7),
        .fail .transportDisconnected] ∧
    ∀ r ∈ received, r.InStep := by
  obtain ⟨received, s', hrun, hresults, hlengths⟩ : ∃ received s',
      runAll receiveStep [0, 0]
        { rx := wrapTcp 1 (.makeStandard .readHoldingRegisters [0, 0, 0, 1]) 7 } =
        .ok (received, s') ∧
      received.map Received.result =
        [.value (wrapTcp 1 (.makeStandard .readHoldingRegisters [0, 0, 0, 1]) 7),
          .fail .transportDisconnected] ∧
      ∀ r ∈ received, r.before.GetsHeader → lengthField r.before.rx ≠ 0 :=
        ⟨_, _, rfl, by decide, by decide⟩
  exact ⟨received, s', hrun, hresults, (receives_in_step_iff hrun).mpr hlengths⟩

/-- The first header has a length field of zero. Its receive takes the first byte of the
frame behind it, and the next one finds no frame there. -/
theorem lengthless_frame_overread : ∃ first second s',
    runAll receiveStep [0, 0]
      { rx := [0, 1, 0, 0, 0, 0] ++
        wrapTcp 1 (.makeStandard .readHoldingRegisters [0, 0, 0, 1]) 7 } =
      .ok ([first, second], s') ∧
    lengthField first.before.rx = 0 ∧ first.result = .fail .invalidFrame ∧
    first.after.connected = true ∧
    first.before.rx.drop 6 = wrapTcp 1 (.makeStandard .readHoldingRegisters [0, 0, 0, 1]) 7 ∧
    first.after.rx ≠ first.before.rx.drop 6 ∧ second.result = .fail .transportDisconnected :=
  ⟨_, _, _, rfl, by decide, by decide, by decide, by decide, by decide, by decide⟩

end TcpTransport

end ModbusPp

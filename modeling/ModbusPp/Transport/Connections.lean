import ModbusPp.Foundation.Descriptors
import ModbusPp.Transport.RtuTransport
import ModbusPp.Transport.TcpTransport

/-! The descriptors of the socket and serial transports (`tcp_transport.cpp`,
`rtu_transport.cpp`), from construction to destruction. A failed send or receive takes the
TCP transport out of its connected state without closing the socket, and `connect` then
writes a new descriptor over the old one. The serial transport stays connected. -/

namespace ModbusPp

open Foundation

/-! ### Sockets -/

/-- A `TCPTransport` with its descriptor; `stream` is what is said and heard on it. -/
structure TcpSocket where
  tcpNodelay : Bool := true
  socketFd : ℤ := -1
  stream : TcpTransport := { connected := false }

/-- What the system answers to the calls of one `connect`, and the stream of the connection
if there is one. -/
structure TcpDial where
  socket : ℤ
  inetPton : ℤ
  connect : ℤ
  inProgress : Bool
  poll : ℤ
  soError : ℤ
  stream : TcpTransport

namespace TcpSocket

/-- Give up the descriptor that was just opened, after so many calls on it. -/
def closing (fd : ℤ) (calls : ℕ) (e : ErrorCode) (s : TcpSocket) :
    VoidResult × List (DescriptorCall ℤ) × TcpSocket :=
  (.fail e, .opened fd :: (uses fd calls ++ [.closed fd]), { s with socketFd := -1 })

/-- `connect`: after the two `fcntl` for the non-blocking mode come `connect`, `poll` and
`getsockopt` if it is in progress, a third `fcntl` and `setsockopt`. -/
def connect (os : TcpDial) (s : TcpSocket) : VoidResult × List (DescriptorCall ℤ) × TcpSocket :=
  if s.stream.connected then (.ok, [], s)
  else if os.socket < 0 then (.fail .transportDisconnected, [], { s with socketFd := os.socket })
  else if os.inetPton ≤ 0 then s.closing os.socket 2 .transportDisconnected
  else if os.connect < 0 ∧ !os.inProgress then s.closing os.socket 3 .transportDisconnected
  else if os.connect < 0 ∧ os.poll ≤ 0 then s.closing os.socket 4 .timeoutExpired
  else if os.connect < 0 ∧ os.soError ≠ 0 then s.closing os.socket 5 .transportDisconnected
  else
    let calls := (if os.connect < 0 then 5 else 3) + 1 + (if s.tcpNodelay then 1 else 0)
    (.ok, .opened os.socket :: uses os.socket calls,
      { s with socketFd := os.socket, stream := { os.stream with connected := true } })

def disconnect (s : TcpSocket) : List (DescriptorCall ℤ) × TcpSocket :=
  (if 0 ≤ s.socketFd then [.closed s.socketFd] else [],
    { s with
      socketFd := if 0 ≤ s.socketFd then -1 else s.socketFd, stream := s.stream.disconnected })

/-- The system calls of a send or a receive are all on the one descriptor; one stands for them. -/
def onStream (s : TcpSocket) :
    List (DescriptorCall ℤ) := if s.stream.connected then uses s.socketFd 1 else []

/-- A call on the transport. -/
inductive Call
  | connect (os : TcpDial)
  | disconnect
  | send (frame : List UInt8)
  | receive

def step : Call → TcpSocket → List (DescriptorCall ℤ) × TcpSocket
  | .connect os, s => (s.connect os).2
  | .disconnect, s => s.disconnect
  | .send frame, s => (s.onStream, { s with stream := (s.stream.send frame).2 })
  | .receive, s => (s.onStream, { s with stream := s.stream.receive.2 })

/-- The descriptor that the transport has. -/
def current (s : TcpSocket) : Option ℤ := if 0 ≤ s.socketFd then some s.socketFd else none

/-- A `connect` of a transport that is not connected and has a descriptor. -/
def overwrites : Call → TcpSocket → Bool
  | .connect _, s => !s.stream.connected && decide (0 ≤ s.socketFd)
  | _, _ => false

/-- A connected transport has a descriptor. -/
def Sound (s : TcpSocket) : Prop := s.stream.connected = true → 0 ≤ s.socketFd

variable {s : TcpSocket}

theorem current_of_nonneg (h : 0 ≤ s.socketFd) : s.current = some s.socketFd := if_pos h

theorem current_of_neg (h : s.socketFd < 0) : s.current = none := if_neg (not_le.mpr h)

theorem stream_sound {stream : TcpTransport} (h : s.Sound)
    (hconnected : stream.connected = true → s.stream.connected = true) :
    Sound { s with stream } :=
  fun hc => h (hconnected hc)

theorem send_connected {t : TcpTransport} {frame : List UInt8}
    (h : (t.send frame).2.connected = true) :
    t.connected = true := by
  by_contra hdown
  rw [TcpTransport.send, if_pos (by simpa using hdown)] at h
  exact hdown h

theorem receive_connected {t : TcpTransport} (h : t.receive.2.connected = true) :
    t.connected = true := by
  by_contra hdown
  rw [TcpTransport.receive, if_pos (by simpa using hdown)] at h
  exact hdown h

theorem handling_onStream (h : s.Sound) : Handling s.current s.onStream s.current := by
  rw [onStream]
  split_ifs with hconnected
  · rw [current_of_nonneg (h hconnected)]
    exact .works _ 1
  · exact .idle _

theorem connect_cases (os : TcpDial) (s : TcpSocket) :
    (s.stream.connected = true ∧ (s.connect os).2 = ([], s)) ∨
    (s.stream.connected = false ∧ os.socket < 0 ∧
      (s.connect os).2 = ([], { s with socketFd := os.socket })) ∨
    (s.stream.connected = false ∧ 0 ≤ os.socket ∧ ∃ n,
      (s.connect os).2 = (.opened os.socket ::
        (uses os.socket n ++ [.closed os.socket]), { s with socketFd := -1 })) ∨
    (s.stream.connected = false ∧ 0 ≤ os.socket ∧
      ∃ n, (s.connect os).2 = (.opened os.socket :: uses os.socket n,
      { s with socketFd := os.socket, stream := { os.stream with connected := true } })) := by
  cases hconnected : s.stream.connected with
  | true => exact .inl ⟨rfl, by rw [connect, if_pos hconnected]⟩
  | false =>
    refine .inr ?_
    rw [connect, if_neg (by rw [hconnected]; decide)]
    rcases lt_or_ge os.socket 0 with hno | hsocket
    · exact .inl ⟨rfl, hno, by rw [if_pos hno]⟩
    · refine .inr ?_
      rw [if_neg (not_lt.mpr hsocket)]
      split_ifs
      · exact .inl ⟨rfl, hsocket, _, rfl⟩
      · exact .inl ⟨rfl, hsocket, _, rfl⟩
      · exact .inl ⟨rfl, hsocket, _, rfl⟩
      · exact .inl ⟨rfl, hsocket, _, rfl⟩
      all_goals exact .inr ⟨rfl, hsocket, _, rfl⟩

theorem handling_step (call : Call) (h : s.Sound) :
    (step call s).2.Sound ∧ Handling s.current (step call s).1 (step call s).2.current := by
  cases call with
  | send frame => exact ⟨stream_sound h send_connected, handling_onStream h⟩
  | receive => exact ⟨stream_sound h receive_connected, handling_onStream h⟩
  | disconnect =>
    refine ⟨nofun, ?_⟩
    by_cases hfd : 0 ≤ s.socketFd
    · have hclosed : (s.disconnect).2.current = none := by
        simp only [disconnect, if_pos hfd]
        rfl
      rw [current_of_nonneg hfd, step, hclosed, disconnect, if_pos hfd]
      exact .closes _
    · have hsame : (s.disconnect).2.current = s.current := by
        simp only [disconnect, if_neg hfd, current]
      rw [step, hsame, disconnect, if_neg hfd]
      exact .idle _
  | connect os =>
    rw [step]
    obtain ⟨-, heq⟩ | ⟨hdown, hno, heq⟩ | ⟨hdown, -, n, heq⟩ | ⟨-, hsocket, n, heq⟩ :=
      connect_cases os s <;> rw [heq]
    · exact ⟨h, .idle _⟩
    · have hcurrent : current { s with socketFd := os.socket } = none := current_of_neg hno
      rw [hcurrent]
      exact ⟨fun hc => absurd hc (by rw [hdown]; decide), .forgets _⟩
    · exact ⟨fun hc => absurd hc (by rw [hdown]; decide), .givesUp _ _ n⟩
    · have hcurrent :
        current { s with socketFd := os.socket, stream := { os.stream with connected := true } } =
        some os.socket := current_of_nonneg hsocket
      rw [hcurrent]
      exact ⟨fun _ => hsocket, .opens _ _ n⟩

theorem overwrites_iff {held : List ℤ} {call : Call} (hkept : Kept s.current held)
    (hfresh : OpensFresh step call (s, held)) :
    overwrites call s = true ↔ Abandons s.current (step call s).1 (step call s).2.current := by
  cases call with
  | send frame => exact iff_of_false nofun (not_abandons_same _ _)
  | receive => exact iff_of_false nofun (not_abandons_same _ _)
  | disconnect =>
    refine iff_of_false nofun ?_
    by_cases hfd : 0 ≤ s.socketFd
    · rw [current_of_nonneg hfd, step, disconnect, if_pos hfd]
      exact not_abandons_closed _ _
    · rw [current_of_neg (not_le.mp hfd)]
      exact not_abandons_none _ _
  | connect os =>
    have hsome : s.current.isSome = true ↔ 0 ≤ s.socketFd := by
      rw [current]
      split_ifs with hfd
      · exact iff_of_true rfl hfd
      · exact iff_of_false nofun hfd
    have hmark : overwrites (.connect os) s = true ↔ s.stream.connected = false ∧
        0 ≤ s.socketFd := by
      simp [overwrites]
    rw [hmark]
    simp only [OpensFresh, step] at hfresh ⊢
    obtain ⟨hup, heq⟩ | ⟨hdown, hno, heq⟩ | ⟨hdown, -, n, heq⟩ | ⟨hdown, hsocket, n, heq⟩ :=
      connect_cases os s
    · rw [heq]
      exact iff_of_false (by rw [hup]; simp) (not_abandons_same _ _)
    · have hcurrent : current { s with socketFd := os.socket } = none := current_of_neg hno
      rw [heq, hcurrent, (loses_forgets _).abandons_iff, hsome, and_iff_right hdown]
    · rw [heq] at hfresh ⊢
      have hloses := loses_givesUp hkept (hfresh os.socket List.mem_cons_self) n
      exact (and_iff_right hdown).trans (hsome.symm.trans hloses.abandons_iff.symm)
    · rw [heq] at hfresh ⊢
      have hcurrent :
        current { s with socketFd := os.socket, stream := { os.stream with connected := true } } =
        some os.socket := current_of_nonneg hsocket
      rw [hcurrent, (loses_opens hkept (hfresh os.socket List.mem_cons_self) n).abandons_iff,
        hsome, and_iff_right hdown]

theorem performCalls_disconnect {held : List ℤ} (hkept : Kept s.current held) :
    performCalls s.disconnect.1 held = .ok (strays s.current held) := by
  by_cases hfd : 0 ≤ s.socketFd
  · rw [current_of_nonneg hfd] at hkept ⊢
    rw [disconnect, if_pos hfd, performCalls_closed (hkept.open_ _ rfl)]
    rfl
  · rw [current_of_neg (not_le.mp hfd), disconnect, if_neg hfd]
    rfl

/-- From its construction to its destruction a TCP transport makes no system call on a
descriptor that is not its own and open; and of those it opened, as many stay open as it has
seen `connect` while it was not connected but still had one. -/
theorem sockets_left_open (tcpNodelay : Bool) (calls : List Call)
    (hfresh : Guarded (descriptorStep step overwrites) (OpensFresh step) calls
      ({ tcpNodelay }, [])) :
    ∃ outs s held left, runAll (descriptorStep step overwrites) calls ({ tcpNodelay }, []) =
      .ok (outs, (s, held)) ∧
      performCalls s.disconnect.1 held = .ok left ∧ left.length = outs.count true := by
  have hsound : Sound { tcpNodelay } := nofun
  have hstart : Kept (current { tcpNodelay }) [] := ⟨List.nodup_nil, nofun⟩
  obtain ⟨outs, s, held, hrun, -, hkept, hstrays⟩ :=
    run_descriptors Sound current (fun _ _ h => handling_step _ h)
    (fun _ _ _ _ hkept hfresh => overwrites_iff hkept hfresh) calls hsound hstart hfresh
  refine ⟨outs, s, held, _, hrun, performCalls_disconnect hkept, hstrays.trans ?_⟩
  exact Nat.zero_add _

/-- An attempt that succeeds at once, with the socket `fd`. -/
def dialed (fd : ℤ) (stream : TcpTransport) : TcpDial := ⟨fd, 1, 0, false, 0, 0, stream⟩

/-- A connection whose peer goes away, and a second one over it: the first socket is never
closed. -/
theorem sockets_left_open_reconnect : ∃ outs s held left, runAll (descriptorStep step overwrites)
      [.connect (dialed 3 {}), .receive, .connect (dialed 4 {})] ({}, []) = .ok (outs, (s, held)) ∧
    performCalls s.disconnect.1 held = .ok left ∧ left.length = 1 := by
  have hfresh : Guarded (descriptorStep step overwrites) (OpensFresh step)
      [.connect (dialed 3 {}), .receive, .connect (dialed 4 {})] ({}, []) := by
    have hdown : ({} : TcpTransport).receive.2.connected = false := rfl
    refine .cons ?_ rfl (.cons ?_ rfl (.cons ?_ rfl trivial)) <;>
      simp [OpensFresh, step, connect, onStream, dialed, uses, hdown]
  obtain ⟨outs, s, held, left, hrun, hleft, hcount⟩ := sockets_left_open true _ hfresh
  have houts : outs = [false, false, true] := by
    have hruns : runAll (descriptorStep step overwrites)
      [.connect (dialed 3 {}), .receive, .connect (dialed 4 {})] ({}, []) =
      .ok ([false, false, true], _) := rfl
    rw [hruns] at hrun
    exact (congrArg Prod.fst (Except.ok.inj hrun)).symm
  exact ⟨outs, s, held, left, hrun, hleft, by rw [hcount, houts]; rfl⟩

end TcpSocket

/-! ### Serial ports -/

/-- An `RTUTransport` with its descriptor. -/
structure RtuPort where
  fd : ℤ := -1
  connected : Bool := false

/-- What the system answers to the calls of one `connect`; the line settings are left out. -/
structure RtuDial where
  opened : ℤ
  tcgetattr : ℤ
  tcsetattr : ℤ

namespace RtuPort

def closing (fd : ℤ) (calls : ℕ) (p : RtuPort) : VoidResult × List (DescriptorCall ℤ) × RtuPort :=
  (.fail .transportDisconnected, .opened fd :: (uses fd calls ++ [.closed fd]), { p with fd := -1 })

/-- `connect`: behind `tcgetattr` and `tcsetattr` come `tcflush` and two `fcntl`. -/
def connect (os : RtuDial) (p : RtuPort) : VoidResult × List (DescriptorCall ℤ) × RtuPort :=
  if p.connected then (.ok, [], p)
  else if os.opened < 0 then (.fail .transportDisconnected, [], { p with fd := os.opened })
  else if os.tcgetattr ≠ 0 then p.closing os.opened 1
  else if os.tcsetattr ≠ 0 then p.closing os.opened 2
  else (.ok, .opened os.opened :: uses os.opened 5, ⟨os.opened, true⟩)

def disconnect (p : RtuPort) : List (DescriptorCall ℤ) × RtuPort :=
  (if 0 ≤ p.fd then [.closed p.fd] else [], ⟨if 0 ≤ p.fd then -1 else p.fd, false⟩)

/-- `send`: one `write`, of which all must be written, and `tcdrain`. -/
def send (frame : List UInt8) (written : ℤ) (p : RtuPort) : VoidResult × List (DescriptorCall ℤ) :=
  if !p.connected then (.fail .transportDisconnected, [])
  else if written < 0 ∨ written ≠ frame.length then (.fail .transportDisconnected, uses p.fd 1)
  else (.ok, uses p.fd 2)

inductive Call
  | connect (os : RtuDial)
  | disconnect
  | send (frame : List UInt8) (written : ℤ)
  | receive (calls : ℕ)

/-- A receive that returns leaves the transport as it is, after so many `poll` and `read`. -/
def step : Call → RtuPort → List (DescriptorCall ℤ) × RtuPort
  | .connect os, p => (p.connect os).2
  | .disconnect, p => p.disconnect
  | .send frame written, p => ((p.send frame written).2, p)
  | .receive calls, p => (if p.connected then uses p.fd calls else [], p)

/-- The port has a descriptor exactly while it is connected. -/
def current (p : RtuPort) : Option ℤ := if p.connected then some p.fd else none

def Sound (p : RtuPort) : Prop := p.connected = true ↔ 0 ≤ p.fd

variable {p : RtuPort}

theorem current_of_connected (h : p.connected = true) : p.current = some p.fd := if_pos h

theorem current_of_not (h : p.connected = false) : p.current = none := if_neg (by rw [h]; decide)

theorem handling_works {calls : List (DescriptorCall ℤ)}
    (hcalls : p.connected = true → ∃ n, calls = uses p.fd n)
    (hnone : p.connected = false → calls = []) : Handling p.current calls p.current := by
  cases hconnected : p.connected with
  | true =>
    obtain ⟨n, rfl⟩ := hcalls hconnected
    rw [current_of_connected hconnected]
    exact .works _ n
  | false =>
    rw [hnone hconnected]
    exact .idle _

theorem handling_step (call : Call) (h : p.Sound) :
    (step call p).2.Sound ∧ Handling p.current (step call p).1 (step call p).2.current := by
  cases call with
  | receive calls =>
    exact ⟨h, handling_works (fun hc => ⟨calls, if_pos hc⟩) (fun hc => if_neg (by rw [hc]; decide))⟩
  | send frame written =>
    refine ⟨h, handling_works (fun hc => ?_) (fun hc => ?_)⟩
    · simp only [step, send, hc, Bool.not_true, Bool.false_eq_true, if_false]
      split_ifs
      · exact ⟨1, rfl⟩
      · exact ⟨2, rfl⟩
    · simp only [step, send, hc]
      rfl
  | disconnect =>
    by_cases hfd : 0 ≤ p.fd
    · simp only [step, disconnect, if_pos hfd]
      rw [current_of_connected (h.mpr hfd)]
      exact ⟨iff_of_false nofun (by decide), .closes _⟩
    · simp only [step, disconnect, if_neg hfd]
      rw [current_of_not (Bool.eq_false_iff.mpr (mt h.mp hfd))]
      exact ⟨iff_of_false nofun hfd, .idle _⟩
  | connect os =>
    obtain ⟨fd, _ | _⟩ := p
    · simp only [step, connect, Bool.false_eq_true, if_false]
      split_ifs with hno hattr hset
      · exact ⟨iff_of_false nofun (not_le.mpr hno), .idle none⟩
      · exact ⟨iff_of_false nofun (show ¬(0 : ℤ) ≤ -1 by decide), .givesUp none _ 1⟩
      · exact ⟨iff_of_false nofun (show ¬(0 : ℤ) ≤ -1 by decide), .givesUp none _ 2⟩
      · exact ⟨iff_of_true rfl (not_lt.mp hno), .opens none _ 5⟩
    · exact ⟨h, .idle _⟩

theorem performCalls_disconnect (h : p.Sound) {held : List ℤ} (hkept : Kept p.current held) :
    performCalls p.disconnect.1 held = .ok (strays p.current held) := by
  by_cases hfd : 0 ≤ p.fd
  · rw [current_of_connected (h.mpr hfd)] at hkept ⊢
    rw [disconnect, if_pos hfd, performCalls_closed (hkept.open_ _ rfl)]
    rfl
  · rw [current_of_not (Bool.eq_false_iff.mpr (mt h.mp hfd)), disconnect, if_neg hfd]
    rfl

theorem not_abandons (call : Call) (h : p.Sound) :
    ¬Abandons p.current (step call p).1 (step call p).2.current := by
  cases call with
  | receive | send => exact not_abandons_same _ _
  | disconnect =>
    by_cases hfd : 0 ≤ p.fd
    · simp only [step, disconnect, if_pos hfd]
      rw [current_of_connected (h.mpr hfd)]
      exact not_abandons_closed _ _
    · rw [current_of_not (Bool.eq_false_iff.mpr (mt h.mp hfd))]
      exact not_abandons_none _ _
  | connect os =>
    cases hconnected : p.connected with
    | true =>
      simp only [step, connect, hconnected, if_true]
      exact not_abandons_same _ _
    | false =>
      rw [current_of_not hconnected]
      exact not_abandons_none _ _

/-- From its construction to its destruction an RTU transport makes no system call on a
descriptor that is not its own and open, and it closes every one that it opened. -/
theorem ports_all_closed (calls : List Call)
    (hfresh : Guarded (descriptorStep step fun _ _ => false) (OpensFresh step) calls ({}, [])) :
    ∃ outs p held, runAll (descriptorStep step fun _ _ => false) calls ({}, []) =
      .ok (outs, (p, held)) ∧
      performCalls p.disconnect.1 held = .ok [] := by
  have hsound : Sound {} := iff_of_false nofun (by decide)
  have hstart : Kept (current {}) [] := ⟨List.nodup_nil, nofun⟩
  obtain ⟨outs, p, held, hrun, hend, hkept, hstrays⟩ :=
    run_descriptors Sound current (fun _ _ h => handling_step _ h)
    (fun call p _ h _ _ => iff_of_false Bool.false_ne_true (not_abandons call h))
      calls hsound hstart hfresh
  refine ⟨outs, p, held, hrun, ?_⟩
  have hnone : strays p.current held = [] := by
    rw [← List.length_eq_zero_iff, hstrays, count_of_unmarked (fun _ _ => rfl) hrun]
    rfl
  rw [performCalls_disconnect hend hkept, hnone]

/-- A port that is opened twice and used in between, on the same descriptor number. -/
theorem ports_all_closed_reopened : ∃ outs p held, runAll (descriptorStep step fun _ _ => false)
      [.connect ⟨3, 0, 0⟩, .send [1] 0, .disconnect, .connect ⟨3, 0, 0⟩] ({}, []) =
        .ok (outs, (p, held)) ∧
    performCalls p.disconnect.1 held = .ok [] := by
  refine ports_all_closed _ ?_
  refine .cons ?_ rfl (.cons ?_ rfl (.cons ?_ rfl (.cons ?_ rfl trivial))) <;>
    simp [OpensFresh, step, connect, disconnect, send, uses]

end RtuPort

end ModbusPp

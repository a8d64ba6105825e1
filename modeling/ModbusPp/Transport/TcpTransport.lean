import Mathlib.Data.List.GetD
import ModbusPp.Foundation.Run
import ModbusPp.Foundation.Stream
import ModbusPp.Transport.FrameCodec
import ModbusPp.Transport.Transport

/-! The TCP transport (`tcp_transport.cpp`) on a connected socket. The byte streams
are lists, and what `poll`, `read` and `write` return is an oracle, one answer for
each call; a call past the end of its answers does all it can. A negative answer
is a failed call, and a read at the end of its stream returns nothing. -/

namespace ModbusPp

open Foundation FrameCodec

/-- A `TCPTransport`: `rx` is what its peer has written and it has not read, `tx` what
it has written. -/
structure TcpTransport where
  connected : Bool := true
  polls : List ℤ := []
  reads : List ℤ := []
  writes : List ℤ := []
  rx : List UInt8 := []
  tx : List UInt8 := []
  deriving DecidableEq

namespace TcpTransport

/-! ### The system calls -/

def poll (s : TcpTransport) : ℤ × TcpTransport :=
  (s.polls.headD 1, { s with polls := s.polls.tail })

/-- The bytes of one `read`, none for an answer `n <= 0`. -/
def read (asked : ℕ) (s : TcpTransport) : List UInt8 × TcpTransport :=
  let n := min (min (s.reads.headD asked).toNat asked) s.rx.length
  (s.rx.take n, { s with reads := s.reads.tail, rx := s.rx.drop n })

/-- The number of bytes one `write` accepts, none for an answer `sent <= 0`. -/
def write (offered : List UInt8) (s : TcpTransport) : ℕ × TcpTransport :=
  let sent := min (s.writes.headD offered.length).toNat offered.length
  (sent, { s with writes := s.writes.tail, tx := s.tx ++ offered.take sent })

/-! ### The two operations -/

def disconnected (s : TcpTransport) : TcpTransport := { s with connected := false }

def send (frame : List UInt8) (s : TcpTransport) : VoidResult × TcpTransport :=
  if !s.connected then (.fail .transportDisconnected, s)
  else match scatter write frame.length frame s with
    | (true, s) => (.ok, s)
    | (false, s) => (.fail .transportDisconnected, s.disconnected)

/-- The header is read first, and its length field says how much more to read. -/
def receive (s : TcpTransport) : Result (List UInt8) × TcpTransport :=
  if !s.connected then (.fail .transportDisconnected, s)
  else
    let (pollRet, s) := s.poll
    if pollRet < 0 then (.fail .transportDisconnected, s.disconnected)
    else if pollRet = 0 then (.fail .timeoutExpired, s)
    else match gather read 7 7 [] s with
      | (none, s) => (.fail .transportDisconnected, s.disconnected)
      | (some header, s) =>
        let pduLength := (lengthField header).toNat
        if pduLength < 1 then (.fail .invalidFrame, s)
        else
          let remaining := pduLength - 1
          match gather read (7 + remaining) remaining header s with
          | (none, s) => (.fail .transportDisconnected, s.disconnected)
          | (some frame, s) => (.value frame, s)

def transport : Transport TcpTransport where
  send frame s := .ok (s.send frame)
  receive _ s := .ok s.receive

/-! ### Sockets that work -/

/-- Every `write` accepts some of what it is offered. -/
def Writable (s : TcpTransport) : Prop := s.connected = true ∧ ∀ n ∈ s.writes, 0 < n

/-- Every `poll` reports data, and every `read` returns some of what there is. -/
def Readable (s : TcpTransport) : Prop :=
  s.connected = true ∧ (∀ n ∈ s.polls, 0 < n) ∧ ∀ n ∈ s.reads, 0 < n

theorem headD_pos {answers : List ℤ} (h : ∀ n ∈ answers, 0 < n) {asked : ℕ} (hasked : 0 < asked) :
    0 < (answers.headD asked).toNat := by
  cases answers with
  | nil => simpa using hasked
  | cons n answers =>
    have hn := h n List.mem_cons_self
    rw [List.headD_cons]
    omega

theorem supplies_read : Supplies read fun q s => s.Readable ∧ s.rx = q := by
  rintro asked q s hasked hq ⟨⟨hconn, hpolls, hreads⟩, rfl⟩
  have hanswer := headD_pos hreads hasked
  have hlen := List.length_pos_of_ne_nil hq
  refine ⟨_, _, _, ?_, ?_, (List.take_append_drop _ s.rx).symm, rfl,
    ⟨hconn, hpolls, fun n hn => hreads n (List.mem_of_mem_tail hn)⟩, rfl⟩
  · rw [← List.length_pos_iff, List.length_take]
    omega
  · rw [List.length_take]
    omega

theorem accepts_write : Accepts write fun q s => s.Writable ∧ s.tx = q := by
  rintro offered q s hoffered ⟨⟨hconn, hwrites⟩, rfl⟩
  have hlen := List.length_pos_of_ne_nil hoffered
  have hanswer := headD_pos hwrites hlen
  exact ⟨min (s.writes.headD offered.length).toNat offered.length, _, by omega, by omega, rfl,
    ⟨hconn, fun n hn => hwrites n (List.mem_of_mem_tail hn)⟩, rfl⟩

theorem send_eq {s : TcpTransport} (h : s.Writable) (frame : List UInt8) :
    ∃ s', s.send frame = (.ok, s') ∧ s'.Writable ∧ s'.tx = s.tx ++ frame := by
  obtain ⟨s', hscatter, hat⟩ := accepts_write.scatter_eq frame.length (Nat.le_refl _) ⟨h, rfl⟩
  refine ⟨s', ?_, hat⟩
  rw [send, h.1, hscatter]
  rfl

/-- The frame a stream begins with is as long as its length field says. -/
def Framed (frame : List UInt8) : Prop :=
  7 ≤ frame.length ∧ frame.length = 6 + (lengthField frame).toNat

instance (frame : List UInt8) : Decidable (Framed frame) := inferInstanceAs (Decidable (_ ∧ _))

theorem lengthField_append {header : List UInt8} (h : 6 ≤ header.length) (rest : List UInt8) :
    lengthField (header ++ rest) = lengthField header := by
  rw [lengthField, List.getD_append _ _ _ _ (by omega),
    List.getD_append _ _ _ _ (by omega), ← lengthField]

/-- `receive` takes a framed message off the front of the stream. -/
theorem receive_framed {s : TcpTransport} (h : s.Readable) {frame rest : List UInt8}
    (hframed : Framed frame) (hrx : s.rx = frame ++ rest) :
    ∃ s', s.receive = (.value frame, s') ∧ s'.Readable ∧ s'.rx = rest := by
  obtain ⟨header, body, rfl, hheader⟩ : ∃ header body, frame = header ++ body ∧ header.length = 7 :=
    ⟨frame.take 7, frame.drop 7, (List.take_append_drop 7 frame).symm,
      List.length_take_of_le hframed.1⟩
  obtain ⟨-, hfield⟩ := hframed
  rw [lengthField_append (by omega), List.length_append, hheader] at hfield
  have hpoll : 0 < s.poll.1 := by
    have hanswer := headD_pos h.2.1 Nat.one_pos
    rw [Nat.cast_one] at hanswer
    rw [poll]
    omega
  have hpolled : s.poll.2.Readable ∧ s.poll.2.rx = header ++ (body ++ rest) :=
    ⟨⟨h.1, fun n hn => h.2.1 n (List.mem_of_mem_tail hn), h.2.2⟩,
      by rw [← List.append_assoc]; exact hrx⟩
  obtain ⟨s₁, hfirst, hat₁⟩ :=
    supplies_read.gather_eq 7 7 [] (by rw [List.length_nil, hheader]) (by omega) hpolled
  obtain ⟨s₂, hsecond, hat₂⟩ := supplies_read.gather_eq (7 + ((lengthField header).toNat - 1))
    ((lengthField header).toNat - 1) header (by omega) (by omega) hat₁
  refine ⟨s₂, ?_, hat₂⟩
  simp only [receive, h.1, Bool.not_true, Bool.false_eq_true, if_false,
    if_neg (show ¬s.poll.1 < 0 by omega),
    if_neg (show ¬s.poll.1 = 0 by omega), hfirst, List.nil_append,
    if_neg (show ¬(lengthField header).toNat < 1 by omega), hsecond]

theorem length_read_le (asked : ℕ) (s : TcpTransport) : (s.read asked).1.length ≤ asked := by
  rw [read, List.length_take]
  omega

/-- Whatever the socket does, a received frame is framed. -/
theorem framed_of_receive {s s' : TcpTransport} {frame : List UInt8}
    (h : s.receive = (.value frame, s')) :
    Framed frame := by
  simp only [receive] at h
  split_ifs at h
  · cases h
  · cases h
  · cases h
  rcases hheader : gather read 7 7 [] s.poll.2 with ⟨_ | header, s₁⟩
  · rw [hheader] at h
    cases h
  obtain ⟨-, hlen⟩ := length_gather length_read_le 7 (by simp) (by simp) hheader
  rw [hheader] at h
  simp only at h
  split_ifs at h with hzero
  · cases h
  rcases hbody : gather read (7 + ((lengthField header).toNat - 1))
    ((lengthField header).toNat - 1) header s₁ with
    ⟨_ | frame', s₂⟩
  · rw [hbody] at h
    cases h
  rw [hbody] at h
  cases h
  obtain ⟨⟨body, rfl⟩, hsize⟩ := length_gather length_read_le _ (by omega) (by omega) hbody
  rw [Framed, lengthField_append (by omega)]
  omega

/-! ### Frames in a row -/

/-- A frame of `wrap_tcp` is framed as long as its length field does not wrap. -/
theorem framed_wrapTcp (unitId : UInt8) {pdu : PDU} (transactionId : UInt16)
    (h : pdu.serialize.length ≤ 65534) :
    Framed (wrapTcp unitId pdu transactionId) := by
  rw [Framed, lengthField_wrapTcp, length_wrapTcp, toNat_ofNat_word (by omega)]
  omega

/-- A framed message passes the header checks if its protocol id is zero, and the
length field leaves nothing of it over. -/
theorem headerOk_wrapTcp (unitId : UInt8) {pdu : PDU} (transactionId : UInt16)
    (h : pdu.serialize.length ≤ 65534) :
    HeaderOk (wrapTcp unitId pdu transactionId) := by
  have hpos := serialize_length_pos pdu
  exact ⟨by rw [length_wrapTcp]; omega, by simp [wrapTcp], by simp [wrapTcp],
    (framed_wrapTcp unitId transactionId h).2.ge⟩

theorem runAll_send (frames : List (List UInt8)) {s : TcpTransport} (h : s.Writable) :
    ∃ s', runAll transport.send frames s = .ok (frames.map fun _ => .ok, s') ∧
      s'.tx = s.tx ++ frames.flatten := by
  induction frames generalizing s with
  | nil => exact ⟨s, rfl, by simp⟩
  | cons frame frames ih =>
    obtain ⟨s₁, hsend, hwritable, htx₁⟩ := send_eq h frame
    obtain ⟨s', hrun, htx⟩ := ih hwritable
    refine ⟨s', runAll_cons.mpr ⟨_, s₁, _, congrArg Except.ok hsend, hrun, rfl⟩, ?_⟩
    rw [htx, htx₁, List.append_assoc, List.flatten_cons]

theorem runAll_receive {frames : List (List UInt8)} {rest : List UInt8}
    (hframed : ∀ frame ∈ frames, Framed frame) (timeouts : List ℕ)
    (hlen : timeouts.length = frames.length) {s : TcpTransport} (h : s.Readable)
    (hrx : s.rx = frames.flatten ++ rest) :
    ∃ s', runAll transport.receive timeouts s = .ok (frames.map .value, s') ∧ s'.rx = rest := by
  induction timeouts generalizing frames s with
  | nil =>
    have hnil : frames = [] := List.length_eq_zero_iff.mp hlen.symm
    subst hnil
    exact ⟨s, rfl, hrx⟩
  | cons timeout timeouts ih =>
    cases frames with
    | nil => cases hlen
    | cons frame frames =>
      rw [List.flatten_cons, List.append_assoc] at hrx
      obtain ⟨s₁, hreceive, hreadable, hrx₁⟩ :=
        receive_framed h (hframed frame List.mem_cons_self) hrx
      obtain ⟨s', hrun, hrx'⟩ := ih (fun f hf => hframed f (List.mem_cons_of_mem frame hf))
        (Nat.succ.inj hlen) hreadable hrx₁
      exact ⟨s', runAll_cons.mpr ⟨_, s₁, _, congrArg Except.ok hreceive, hrun, rfl⟩, hrx'⟩

/-- Frames of any sizes are written and read back in order, each whole and alone,
however the writes and the reads cut the stream. -/
theorem reassembles (messages : List (UInt8 × PDU × UInt16))
    (hsize : ∀ m ∈ messages, m.2.1.serialize.length ≤ 65534) (sender : TcpTransport)
    (hsender : sender.Writable) (hstart : sender.tx = []) :
    let frames := messages.map fun m => wrapTcp m.1 m.2.1 m.2.2
    (∀ frame ∈ frames, HeaderOk frame ∧ 6 + (lengthField frame).toNat = frame.length) ∧
    ∃ sender', runAll transport.send frames sender = .ok (frames.map fun _ => .ok, sender') ∧
      ∀ receiver : TcpTransport, receiver.Readable → receiver.rx = sender'.tx →
        ∀ timeouts : List ℕ, timeouts.length = messages.length →
          ∃ receiver', runAll transport.receive timeouts receiver =
            .ok (frames.map .value, receiver') ∧
            receiver'.rx = [] := by
  intro frames
  have hframed : ∀ frame ∈ frames, HeaderOk frame ∧ Framed frame := by
    intro frame hmem
    obtain ⟨m, hm, rfl⟩ := List.mem_map.mp hmem
    exact ⟨headerOk_wrapTcp _ _ (hsize m hm), framed_wrapTcp _ _ (hsize m hm)⟩
  obtain ⟨sender', hsend, htx⟩ := runAll_send frames hsender
  refine ⟨fun frame hmem => ⟨(hframed frame hmem).1, (hframed frame hmem).2.2.symm⟩,
    sender', hsend, ?_⟩
  intro receiver hreadable hrx timeouts hlen
  rw [hstart, List.nil_append] at htx
  exact runAll_receive (fun frame hmem => (hframed frame hmem).2) timeouts
    (by rw [hlen, List.length_map]) hreadable
    (by rw [hrx, htx, List.append_nil])

theorem reassembles_two_frames :
    ∃ receiver', runAll transport.receive [1000, 1000]
        { reads := [3, 2, 4, 1, 1],
          rx := wrapTcp 1 (.makeStandard .readHoldingRegisters [0, 0, 0, 1]) 7 ++
            wrapTcp 2 (.makeStandard .writeSingleRegister [0, 9, 0, 2]) 8 } =
      .ok ([.value (wrapTcp 1 (.makeStandard .readHoldingRegisters [0, 0, 0, 1]) 7),
        .value (wrapTcp 2 (.makeStandard .writeSingleRegister [0, 9, 0, 2]) 8)], receiver') ∧
        receiver'.rx = [] := by
  obtain ⟨-, sender', hsend, hreceive⟩ := reassembles
    [(1, .makeStandard .readHoldingRegisters [0, 0, 0, 1], 7),
      (2, .makeStandard .writeSingleRegister [0, 9, 0, 2], 8)]
    (by decide) { writes := [1, 5, 2] } ⟨rfl, by decide⟩ rfl
  cases hsend
  exact hreceive _ ⟨rfl, by decide, by decide⟩ rfl [1000, 1000] rfl

end TcpTransport

end ModbusPp

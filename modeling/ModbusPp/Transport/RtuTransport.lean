import ModbusPp.Core.Result
import ModbusPp.Foundation.DoWhile

/-! The RTU receiver (`rtu_transport.cpp`) on an open serial device. What `poll` and `read`
return is up to the device; a failed read and one that returns nothing come to the same,
as the source only asks for `n > 0`. The loop reads until a poll reports no more data, so
it ends by no read, and not at all on a line that stays ready with nothing to read. -/

namespace ModbusPp

open Foundation

/-- A serial device: `poll` with its timeout, and the bytes of one `read`. -/
structure SerialDevice (σ : Type) where
  poll : ℤ → σ → ℤ × σ
  read : ℕ → σ → List UInt8 × σ

/-- An `RTUTransport` and the state of its device. -/
structure RtuTransport (σ : Type) where
  connected : Bool := true
  device : σ

namespace RtuTransport

variable {σ : Type} (D : SerialDevice σ)

/-- The variables of the loop of `receive`. -/
structure Reading (σ : Type) where
  buffer : List UInt8 := []
  more : ℤ := 1
  device : σ

/-- One turn: read what there is, and poll for more. -/
def readOnce (r : Reading σ) : Reading σ :=
  let (bytes, device) := D.read 256 r.device
  let (more, device) := D.poll 5 device
  { buffer := r.buffer ++ bytes, more, device }

/-- `receive`, for so many turns of its loop at most. -/
def receive (timeout : ℤ) (turns : ℕ) (t : RtuTransport σ) :
    Option (Result (List UInt8) × RtuTransport σ) :=
  if !t.connected then some (.fail .transportDisconnected, t)
  else
    let (pollRet, device) := D.poll timeout t.device
    if pollRet < 0 then some (.fail .transportDisconnected, { t with device })
    else if pollRet = 0 then some (.fail .timeoutExpired, { t with device })
    else do
      let r ← doWhile (readOnce D) (fun r => decide (0 < r.more)) turns { device }
      if r.buffer.isEmpty then return (.fail .timeoutExpired, { t with device := r.device })
      return (.value r.buffer, { t with device := r.device })

end RtuTransport

namespace SerialDevice

variable {σ : Type} (D : SerialDevice σ)

/-- The state of the device after `k` turns of the loop. -/
def after : ℕ → σ → σ
  | 0, s => s
  | k + 1, s => after k (D.poll 5 (D.read 256 s).2).2

/-- What the poll of turn `k` answers, where the turns are counted from zero. -/
def answer (k : ℕ) (s : σ) : ℤ := (D.poll 5 (D.read 256 (D.after k s)).2).1

/-- The bytes read in the first `k` turns. -/
def bytesRead : ℕ → σ → List UInt8
  | 0, _ => []
  | k + 1, s => (D.read 256 s).1 ++ bytesRead k (D.poll 5 (D.read 256 s).2).2

end SerialDevice

namespace RtuTransport

variable {σ : Type} {D : SerialDevice σ}

theorem readOnce_iterate (k : ℕ) (r : Reading σ) :
    ((readOnce D)^[k] r).buffer = r.buffer ++ D.bytesRead k r.device ∧
    ((readOnce D)^[k] r).device = D.after k r.device ∧
      ((readOnce D)^[k + 1] r).more = D.answer k r.device := by
  induction k generalizing r with
  | zero => exact ⟨(List.append_nil _).symm, rfl, rfl⟩
  | succ k ih =>
    obtain ⟨hbuffer, hdevice, hmore⟩ := ih (readOnce D r)
    refine ⟨?_, hdevice, hmore⟩
    rw [Function.iterate_succ_apply, hbuffer, SerialDevice.bytesRead, ← List.append_assoc]
    rfl

theorem receive_fails {timeout : ℤ} {t : RtuTransport σ}
    (h : t.connected = false ∨ (D.poll timeout t.device).1 ≤ 0) :
    ∃ result t', t.receive D timeout 0 = some (result, t') ∧ result.hasValue = false := by
  simp only [receive]
  split_ifs with hconnected hfailed hnothing
  · exact ⟨_, _, rfl, rfl⟩
  · exact ⟨_, _, rfl, rfl⟩
  · exact ⟨_, _, rfl, rfl⟩
  · rw [Bool.not_eq_true, Bool.not_eq_false'] at hconnected
    rw [hconnected] at h
    rcases lt_or_eq_of_le (h.resolve_left (by decide)) with hlt | heq
    · exact absurd hlt hfailed
    · exact absurd heq hnothing

theorem receive_loop {timeout : ℤ} {turns : ℕ} {t : RtuTransport σ}
    (hconnected : t.connected = true) (hready : 0 < (D.poll timeout t.device).1) :
    t.receive D timeout turns =
      (doWhile (readOnce D) (fun r => decide (0 < r.more)) turns
        { device := (D.poll timeout t.device).2 }).map fun r =>
        (if r.buffer.isEmpty then .fail .timeoutExpired else .value r.buffer,
          { t with device := r.device }) := by
  simp only [receive, hconnected, Bool.not_true, Bool.false_eq_true, if_false,
    if_neg (show ¬(D.poll timeout t.device).1 < 0 by omega),
    if_neg (show ¬(D.poll timeout t.device).1 = 0 by omega)]
  cases doWhile (readOnce D) (fun r => decide (0 < r.more)) turns
    { device := (D.poll timeout t.device).2 } with
  | none => rfl
  | some r =>
    change (if r.buffer.isEmpty = true then some _ else some _) =
      some (if r.buffer.isEmpty = true then _ else _, _)
    split_ifs <;> rfl

theorem loop_ends_iff (device : σ) :
    (∃ turns r, doWhile (readOnce D) (fun r => decide (0 < r.more)) turns { device } = some r) ↔
      ∃ k, D.answer k device ≤ 0 := by
  rw [doWhile_returns_iff]
  refine exists_congr fun k => ?_
  rw [(readOnce_iterate k _).2.2, decide_eq_false_iff_not, not_lt]

/-- The receiver ends, with all the bytes that it has read or an error, if and only if it is
not connected, its first poll reports no data, or a poll after one of its reads does. -/
theorem receive_returns_iff (D : SerialDevice σ) (timeout : ℤ) (t : RtuTransport σ) :
    (∃ turns result t', t.receive D timeout turns = some (result, t') ∧
      (result.hasValue = false ∨ ∃ k, result = .value (D.bytesRead k (D.poll timeout t.device).2) ∧
        t'.device = D.after k (D.poll timeout t.device).2)) ↔
    t.connected = false ∨ (D.poll timeout t.device).1 ≤ 0 ∨
    ∃ k, D.answer k (D.poll timeout t.device).2 ≤ 0 := by
  by_cases hfails : t.connected = false ∨ (D.poll timeout t.device).1 ≤ 0
  · obtain ⟨result, t', hreceive, hfailed⟩ := receive_fails hfails
    refine iff_of_true ⟨0, result, t', hreceive, .inl hfailed⟩ ?_
    rw [← or_assoc]
    exact .inl hfails
  rw [← or_assoc, or_iff_right hfails, ← loop_ends_iff]
  rw [not_or, Bool.not_eq_false, not_le] at hfails
  obtain ⟨hconnected, hready⟩ := hfails
  constructor
  · rintro ⟨turns, result, t', h, -⟩
    rw [receive_loop hconnected hready, Option.map_eq_some_iff] at h
    obtain ⟨r, hloop, -⟩ := h
    exact ⟨turns, r, hloop⟩
  · rintro ⟨turns, r, hloop⟩
    refine ⟨turns, _, _, by rw [receive_loop hconnected hready, hloop, Option.map_some], ?_⟩
    obtain ⟨k, -, rfl, -, -⟩ := doWhile_eq_some_iff.mp hloop
    obtain ⟨hbuffer, hdevice, -⟩ :=
      readOnce_iterate (D := D) (k + 1) { device := (D.poll timeout t.device).2 }
    rw [hbuffer, hdevice, List.nil_append]
    split_ifs with hempty
    · exact .inl rfl
    · exact .inr ⟨k + 1, rfl, rfl⟩

/-- A line that hung up with some bytes left to read: it hands them out, then nothing, and
every poll finds it ready. -/
def hungUp : SerialDevice (List UInt8) where
  poll _ left := (1, left)
  read n left := (left.take n, left.drop n)

theorem hungUp_bytesRead_nil (k : ℕ) : hungUp.bytesRead k [] = [] := by
  induction k with
  | zero => rfl
  | succ k ih => exact ih

/-- It delivers its two bytes and no more, and the receiver never returns. -/
theorem hung_up_never_returns :
    (∀ k, hungUp.bytesRead (k + 1) [0x01, 0x03] = [0x01, 0x03]) ∧
    ¬∃ turns result t',
      (⟨true, [0x01, 0x03]⟩ : RtuTransport (List UInt8)).receive hungUp 1000 turns =
      some (result, t') := by
  constructor
  · intro k
    change [0x01, 0x03] ++ hungUp.bytesRead k [] = [0x01, 0x03]
    rw [hungUp_bytesRead_nil, List.append_nil]
  · rintro ⟨turns, result, t', h⟩
    rw [receive_loop rfl Int.one_pos, Option.map_eq_some_iff] at h
    obtain ⟨r, hloop, -⟩ := h
    obtain ⟨k, hends⟩ := (loop_ends_iff _).mp ⟨turns, r, hloop⟩
    have hready : ∀ k (left : List UInt8), hungUp.answer k left = 1 := fun _ _ => rfl
    rw [hready] at hends
    contradiction

end RtuTransport

end ModbusPp

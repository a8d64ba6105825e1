import ModbusPp.Client.Writes

/-! Multiple writes of any length. The client checks nothing, the frame's length
field holds 16 bits and the server takes whatever registers the length covers: a
list whose length wraps is cut, and what is left is written and confirmed. -/

namespace ModbusPp.Operation

open Foundation

variable {σ : Type} {server : Server σ} {handler : WriteHandler σ}
  {unit : UInt8} {values : List UInt16}
  (extra : ℕ) (client : Client) (device : σ) (calls : List HandlerCall)

/-- Success means that the write handler was called once, with the address and
all the values, and a request that does not fit its frame is no success. -/
def WritesAll (server : Server σ) (unit : UInt8) (addr : UInt16) (values : List UInt16) : Prop :=
  ∃ out s', (writeMultipleRegisters unit addr values).run (server.across extra)
    ⟨client, Server.quiet device calls⟩ = .ok (out, s') ∧
    (out.hasValue = true → ∃ verdict, s'.net.calls = calls ++ [.write addr values verdict]) ∧
    (65535 < 1 + (Client.writeMultipleRequest addr values).serialize.length → out.hasValue = false)

theorem length_writeMultipleRequest (addr : UInt16) (values : List UInt16) :
    (Client.writeMultipleRequest addr values).serialize.length = 6 + 2 * values.length := by
  change (writeMultipleData addr values).length + 1 = _
  rw [length_writeMultipleData]
  omega

theorem not_writesAll (hwrite : server.writeHandler = some handler) (hunit : server.Addressed unit)
    (addr : UInt16) (hlong : 32768 ≤ values.length) (hleft : values.length % 32768 ≤ 32764) :
    ¬WritesAll extra client device calls server unit addr values := by
  rintro ⟨out, s', hout, hall, -⟩
  rw [writeMultiple_answered extra client device calls hwrite hunit addr hleft, Except.ok.injEq,
    Prod.mk.injEq] at hout
  obtain ⟨rfl, rfl⟩ := hout
  obtain ⟨verdict, hcalls⟩ := hall rfl
  have hcall := List.append_cancel_left hcalls
  simp only [List.cons.injEq, HandlerCall.write.injEq, true_and, and_true] at hcall
  have hlen := congrArg List.length hcall.1
  rw [List.length_take] at hlen
  omega

/-- A multiple write is all or nothing exactly when its length field does not
wrap to a request that still has its first five data bytes. -/
theorem writesAll_iff (hwrite : server.writeHandler = some handler)
    (hunit : server.Addressed unit) (addr : UInt16) (values : List UInt16) :
    WritesAll extra client device calls server unit addr values ↔
      values.length < 32768 ∨ 32764 < values.length % 32768 := by
  constructor
  · intro hall
    by_contra hno
    rw [not_or, Nat.not_lt, Nat.not_lt] at hno
    exact not_writesAll extra client device calls hwrite hunit addr hno.1 hno.2 hall
  · intro hlen
    rcases Nat.lt_or_ge 32764 (values.length % 32768) with hdropped | hleft
    · exact ⟨_, _, writeMultiple_dropped extra client device calls hwrite hunit addr hdropped,
        fun h => absurd h (by decide), fun _ => rfl⟩
    · have hwhole : values.take (values.length % 32768) = values :=
        List.take_of_length_le (by omega)
      refine ⟨_, _, writeMultiple_answered extra client device calls hwrite hunit addr hleft,
        fun _ => ⟨_, by rw [hwhole]; rfl⟩, ?_⟩
      intro hfull
      rw [length_writeMultipleRequest] at hfull
      omega

theorem writesAll_two : WritesAll 0 {} () [] (saying .ok) 1 0 [7, 8] :=
  (writesAll_iff 0 {} () [] (saying_writeHandler .ok) (Or.inl rfl) 0 [7, 8]).mpr
    (Or.inl (by decide))

/-- Of 32768 registers none arrives, and the client reports success. -/
theorem writesAll_none_left : ¬WritesAll 0 {} () [] (saying .ok) 1 0 (List.replicate 32768 7) :=
  not_writesAll 0 {} () [] (saying_writeHandler .ok) (Or.inl rfl) 0 (by rw [List.length_replicate])
    (by rw [List.length_replicate]; decide)

end ModbusPp.Operation

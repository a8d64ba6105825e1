import ModbusPp.Client.AgainstServer

/-! Writes against a server. The server answers a write with its echo before it
has looked at the handler's verdict, so the client learns that the handler was
called and nothing of what it said. -/

namespace ModbusPp.Operation

open Foundation

variable {σ : Type} {server : Server σ} {handler : WriteHandler σ}
  {op : Operation} {unit : UInt8} {addr : UInt16}
  {values : List UInt16} (extra : ℕ) (client : Client) (device : σ) (calls : List HandlerCall)

/-! ### What becomes of a write -/

theorem unwrapTcp_writeSingle (unit : UInt8) (addr value : UInt16) (client : Client) :
    FrameCodec.unwrapTcp (.ofList ((writeSingleRegister unit addr value).frame client)) =
      .ok (.value (unit, Client.writeSingleRequest addr value, client.nextTransactionId)) :=
  FrameCodec.unwrapTcp_standard_of_lt FunctionCode.writeSingleRegister_standard _ _ (by simp)

theorem writeSingle_answered (hwrite : server.writeHandler = some handler)
    (hunit : server.Addressed unit) (addr value : UInt16) :
    (writeSingleRegister unit addr value).run (server.across extra)
      ⟨client, Server.quiet device calls⟩ =
      .ok (.done .ok, ⟨client.advance, Server.quiet (handler addr [value] device).2
        (calls ++ [.write addr [value] (handler addr [value] device).1])⟩) := by
  have hturn := Server.processOne_addressed (unwrapTcp_writeSingle unit addr value client) hunit
    (Server.handleRequest_writeSingle device calls client.nextTransactionId hwrite addr value)
  have hdecode :=
    Client.decodeResponse_value (unwrapTcp_writeSingle server.unitId addr value client)
  rw [Client.responseResult_of_not
    (show ¬FunctionCode.writeSingleRegister.IsException by decide)] at hdecode
  exact run_answered hturn hdecode rfl

/-- The data bytes of a multiple write. -/
def writeMultipleData (addr : UInt16) (values : List UInt16) : List UInt8 :=
  [hiByte addr, loByte addr, hiByte (UInt16.ofNat values.length),
    loByte (UInt16.ofNat values.length),
    UInt8.ofNat ((UInt16.ofNat values.length).toNat * 2)] ++ registerBytes values

theorem length_writeMultipleData (addr : UInt16) (values : List UInt16) :
    (writeMultipleData addr values).length = 5 + 2 * values.length := by
  simp [writeMultipleData]
  omega

/-- What arrives of a multiple write, and is confirmed, is its first
`values.length % 32768` registers: the rest is behind the end the wrapped length
field announces. -/
theorem writeMultiple_answered (hwrite : server.writeHandler = some handler)
    (hunit : server.Addressed unit) (addr : UInt16) (hfits : values.length % 32768 ≤ 32764) :
    (writeMultipleRegisters unit addr values).run (server.across extra)
      ⟨client, Server.quiet device calls⟩ =
      .ok (.done .ok,
        ⟨client.advance, Server.quiet (handler addr (values.take (values.length % 32768)) device).2
        (calls ++ [.write addr (values.take (values.length % 32768))
          (handler addr (values.take (values.length % 32768)) device).1])⟩) := by
  have hdata := length_writeMultipleData addr values
  have hfield : (2 + (writeMultipleData addr values).length) % 65536 - 2 =
    2 * (values.length % 32768) + 5 := by omega
  have hcut : (writeMultipleData addr values).take (2 * (values.length % 32768) + 5) =
      hiByte addr :: loByte addr :: hiByte (UInt16.ofNat values.length) ::
        loByte (UInt16.ofNat values.length) ::
        UInt8.ofNat ((UInt16.ofNat values.length).toNat * 2) ::
        (registerBytes values).take (2 * (values.length % 32768)) := rfl
  have hrequest := FrameCodec.unwrapTcp_standard FunctionCode.writeMultipleRegisters_standard unit
    (writeMultipleData addr values) client.nextTransactionId (by omega)
  rw [hfield, hcut] at hrequest
  have hhandle :=
    Server.handleRequest_writeMultiple device calls client.nextTransactionId hwrite addr
    (UInt16.ofNat values.length) (UInt8.ofNat ((UInt16.ofNat values.length).toNat * 2))
    ((registerBytes values).take (2 * (values.length % 32768)))
  rw [registersOf_take] at hhandle
  have hdecode := Client.decodeResponse_value (FrameCodec.unwrapTcp_standard_of_lt
    FunctionCode.writeMultipleRegisters_standard server.unitId client.nextTransactionId
    (show [hiByte addr, loByte addr, hiByte (UInt16.ofNat values.length),
      loByte (UInt16.ofNat values.length)].length < 65534 by simp))
  rw [Client.responseResult_of_not
    (show ¬FunctionCode.writeMultipleRegisters.IsException by decide)] at hdecode
  exact run_answered (Server.processOne_addressed hrequest hunit hhandle) hdecode rfl

/-- A multiple write is dropped when the wrapped length field does not even cover
its first five data bytes. -/
theorem writeMultiple_dropped (hwrite : server.writeHandler = some handler)
    (hunit : server.Addressed unit) (addr : UInt16) (hwraps : 32764 < values.length % 32768) :
    (writeMultipleRegisters unit addr values).run (server.across extra)
      ⟨client, Server.quiet device calls⟩ =
      .ok (.done (.fail .timeoutExpired), ⟨client.advance, Server.quiet device calls⟩) := by
  have hdata := length_writeMultipleData addr values
  by_cases hone : (2 + (writeMultipleData addr values).length) % 65536 = 1
  · have hrequest := FrameCodec.unwrapTcp_standard_of_eq_one .writeMultipleRegisters
      unit client.nextTransactionId hone
    exact run_unanswered (Server.processOne_rejected hrequest) rfl
  · have hrequest := FrameCodec.unwrapTcp_standard FunctionCode.writeMultipleRegisters_standard unit
      (writeMultipleData addr values) client.nextTransactionId (by omega)
    have hcut : ((writeMultipleData addr values).take
      ((2 + (writeMultipleData addr values).length) % 65536 - 2)).length <
        5 := by
      rw [List.length_take]
      omega
    exact run_unanswered (Server.processOne_addressed hrequest hunit
      (Server.handleRequest_writeMultiple_cut device calls _ hwrite hcut)) rfl

/-! ### Verdicts -/

/-- A single write, or a multiple write of a size the protocol allows, with its
address and values. -/
inductive Writes (unit : UInt8) (addr : UInt16) : Operation → List UInt16 → Prop
  | single (value : UInt16) : Writes unit addr (writeSingleRegister unit addr value) [value]
  | multiple (values : List UInt16) (hne : values ≠ []) (hmax : values.length ≤ 123) :
      Writes unit addr (writeMultipleRegisters unit addr values) values

/-- The client reports success exactly if a write handler called for it did, and
the error code of a handler that failed. -/
def ReportsVerdict (server : Server σ) (op : Operation) : Prop :=
  ∃ out s' made, op.run (server.across extra) ⟨client, Server.quiet device calls⟩ = .ok (out, s') ∧
    s'.net.calls = calls ++ made ∧
    (out.hasValue = true ↔ ∃ addr values verdict, .write addr values verdict ∈ made ∧
      verdict.hasValue = true) ∧
    ∀ addr values e, e ≠ ErrorCode.success → .write addr values (.fail e) ∈ made →
      out.error = makeErrorCode e

theorem writes_answered (hop : Writes unit addr op values)
    (hwrite : server.writeHandler = some handler) (hunit : server.Addressed unit) :
    op.run (server.across extra) ⟨client, Server.quiet device calls⟩ =
      .ok (.done .ok, ⟨client.advance, Server.quiet (handler addr values device).2
        (calls ++ [.write addr values (handler addr values device).1])⟩) := by
  cases hop with
  | single value => exact writeSingle_answered extra client device calls hwrite hunit addr value
  | multiple values hne hmax =>
    have hwhole : values.take (values.length % 32768) = values := List.take_of_length_le (by omega)
    have hrun := writeMultiple_answered extra client device calls hwrite hunit addr
      (show values.length % 32768 ≤ 32764 by omega)
    rwa [hwhole] at hrun

theorem writes_unaddressed (hop : Writes unit addr op values) (hunit : ¬server.Addressed unit) :
    op.run (server.across extra) ⟨client, Server.quiet device calls⟩ =
      .ok (.done (.fail .timeoutExpired), ⟨client.advance, Server.quiet device calls⟩) := by
  cases hop with
  | single value =>
    exact run_unaddressed extra client device calls
      (unwrapTcp_writeSingle unit addr value client) hunit rfl
  | multiple values hne hmax =>
    have hrequest :=
      FrameCodec.unwrapTcp_standard_of_lt FunctionCode.writeMultipleRegisters_standard
      unit client.nextTransactionId (show (writeMultipleData addr values).length < 65534 by
        rw [length_writeMultipleData]; omega)
    exact run_unaddressed extra client device calls hrequest hunit rfl

/-- The client reports the verdict of the write handler exactly when there is
none or it is success. -/
theorem reportsVerdict_iff (hop : Writes unit addr op values)
    (hwrite : server.writeHandler = some handler) :
    ReportsVerdict extra client device calls server op ↔
      (server.Addressed unit → (handler addr values device).1.hasValue = true) := by
  by_cases hunit : server.Addressed unit
  · have hrun := writes_answered extra client device calls hop hwrite hunit
    constructor
    · rintro ⟨out, s', made, hout, hmade, hvalue, -⟩ -
      rw [hrun, Except.ok.injEq, Prod.mk.injEq] at hout
      obtain ⟨rfl, rfl⟩ := hout
      obtain rfl := List.append_cancel_left hmade
      obtain ⟨addr', values', verdict, hmem, hverdict⟩ := hvalue.mp rfl
      obtain ⟨rfl, rfl, rfl⟩ := HandlerCall.write.inj (List.mem_singleton.mp hmem)
      exact hverdict
    · intro hsuccess
      refine ⟨_, _, _, hrun, rfl, ?_, ?_⟩
      · exact ⟨fun _ => ⟨addr, values, _, List.mem_singleton_self _, hsuccess hunit⟩, fun _ => rfl⟩
      · intro addr' values' e he hmem
        obtain ⟨rfl, rfl, hverdict⟩ := HandlerCall.write.inj (List.mem_singleton.mp hmem)
        have hzero := (VoidResult.hasValue_iff _).mp (hsuccess hunit)
        rw [← hverdict] at hzero
        exact absurd (congrArg ErrorCode.mk hzero) he
  · have hrun := writes_unaddressed extra client device calls hop hunit
    refine ⟨fun _ h => absurd h hunit, fun _ => ⟨_, _, [], hrun, (List.append_nil _).symm, ?_, ?_⟩⟩
    · simp [Outcome.hasValue, VoidResult.fail, VoidResult.hasValue_iff, ErrorCode.timeoutExpired]
    · simp

/-- A server whose write handler has one verdict for everything. -/
def saying (verdict : VoidResult) : Server Unit := ⟨1, none, some fun _ _ d => (verdict, d)⟩

theorem saying_writeHandler (verdict : VoidResult) :
    (saying verdict).writeHandler = some fun _ _ d => (verdict, d) := rfl

theorem reportsVerdict_accepted : ReportsVerdict 0 {} () [] (saying .ok)
    (writeSingleRegister 1 0 7) :=
  (reportsVerdict_iff 0 {} () [] (Writes.single 7 : Writes 1 0 (writeSingleRegister 1 0 7) [7])
    (saying_writeHandler .ok)).mpr fun _ => rfl

/-- A handler that refuses the address, and a client that is told of success. -/
theorem reportsVerdict_refused :
    ¬ReportsVerdict 0 {} () [] (saying (.fail .illegalDataAddress))
      (writeSingleRegister 1 0 7) := by
  have hrun := writeSingle_answered 0 {} () [] (saying_writeHandler (.fail .illegalDataAddress))
    (show (saying (.fail .illegalDataAddress)).Addressed 1 from Or.inl rfl) 0 7
  rintro ⟨out, s', made, hout, hmade, hvalue, -⟩
  rw [hrun, Except.ok.injEq, Prod.mk.injEq] at hout
  obtain ⟨rfl, rfl⟩ := hout
  obtain rfl := List.append_cancel_left hmade
  obtain ⟨addr, values, verdict, hmem, hverdict⟩ := hvalue.mp rfl
  obtain ⟨rfl, rfl, rfl⟩ := HandlerCall.write.inj (List.mem_singleton.mp hmem)
  contradiction

end ModbusPp.Operation

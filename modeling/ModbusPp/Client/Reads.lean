import ModbusPp.Client.AgainstServer

/-! Reads against a server. The byte count of a response is cut to 8 bits and its
length field to 16; the client takes the registers up to the end of what the
length field covers, so the first cut does no harm and the second one loses a
multiple of 32768 registers without a trace. -/

namespace ModbusPp.Operation

open Foundation

variable {σ : Type} {server : Server σ} {handler : ReadHandler σ} {unit : UInt8} {count : UInt16}
  (extra : ℕ) (client : Client) (device : σ) (calls : List HandlerCall)

theorem unwrapTcp_readHolding (unit : UInt8) (addr count : UInt16) (client : Client) :
    FrameCodec.unwrapTcp (.ofList ((readHoldingRegisters unit addr count).frame client)) =
      .ok (.value (unit, Client.readHoldingRequest addr count, client.nextTransactionId)) :=
  FrameCodec.unwrapTcp_standard_of_lt FunctionCode.readHoldingRegisters_standard _ _ (by simp)

/-- What the client makes of the handler's verdict. -/
def readOutcome : Result (List UInt16) → Result (List UInt16)
  | .value regs =>
    if regs.length % 32768 = 32767 then .fail .invalidFrame else .value
      (regs.take (regs.length % 32768))
  | .failure ec => .failure (makeErrorCode ⟨(UInt8.ofInt ec.value).toNat⟩)

theorem readResponse_registers (regs : List UInt16) :
    Client.readResponse (.makeStandard .readHoldingRegisters
      (UInt8.ofNat (regs.length * 2) :: (registerBytes regs).take (2 * (regs.length % 32768)))) =
      .value (regs.take (regs.length % 32768)) := by
  have hbytes : ((registerBytes regs).take (2 * (regs.length % 32768))).length =
      2 * (regs.length % 32768) := by
    rw [List.length_take, length_registerBytes]
    omega
  have hcount : (UInt8.ofNat (regs.length * 2)).toNat = regs.length * 2 % 256 := UInt8.toNat_ofNat'
  simp only [Client.readResponse, PDU.makeStandard]
  rw [hbytes, hcount, if_neg (by omega), registersOf_take]

theorem readAnswer_outcome (unitId : UInt8) (txnId : UInt16) (verdict : Result (List UInt16)) :
    ∃ result,
      Client.decodeResponse (FrameCodec.wrapTcp unitId (Server.readAnswer verdict) txnId) =
        .ok result ∧
      result.andThen Client.readResponse = readOutcome verdict := by
  cases verdict with
  | failure ec =>
    have hunwrap := FrameCodec.unwrapTcp_standard_of_lt
      (show ¬(⟨FunctionCode.readHoldingRegisters.byte ||| 0x80⟩ :
        FunctionCode).IsExtended by decide) unitId txnId
      (show [UInt8.ofInt ec.value].length < 65534 by simp)
    have hdecode := Client.decodeResponse_value hunwrap
    rw [Client.responseResult_exception_cons
      (show (⟨FunctionCode.readHoldingRegisters.byte ||| 0x80⟩ :
        FunctionCode).IsException by decide) rfl] at hdecode
    exact ⟨_, hdecode, rfl⟩
  | value regs =>
    have hdata :
        (UInt8.ofNat (regs.length * 2) :: registerBytes regs).length = 1 + 2 * regs.length := by
      rw [List.length_cons, length_registerBytes]
      omega
    by_cases hlost : regs.length % 32768 = 32767
    · -- the length field is one: it does not even cover the function code
      have hunwrap := FrameCodec.unwrapTcp_standard_of_eq_one .readHoldingRegisters unitId txnId
        (show (2 + (UInt8.ofNat (regs.length * 2) :: registerBytes regs).length) %
          65536 = 1 by omega)
      refine ⟨.fail .invalidFrame, ?_, by rw [readOutcome, if_pos hlost, Result.andThen_fail]⟩
      change Client.decodeResponse (FrameCodec.wrapTcp unitId (.makeStandard .readHoldingRegisters
        (UInt8.ofNat (regs.length * 2) :: registerBytes regs)) txnId) = _
      rw [Client.decodeResponse, hunwrap]
      rfl
    · have hunwrap :=
        FrameCodec.unwrapTcp_standard FunctionCode.readHoldingRegisters_standard unitId
        (UInt8.ofNat (regs.length * 2) :: registerBytes regs) txnId (by omega)
      have hfield : (2 + (UInt8.ofNat (regs.length * 2) :: registerBytes regs).length) % 65536 - 2 =
          2 * (regs.length % 32768) + 1 := by omega
      rw [hfield, List.take_succ_cons] at hunwrap
      have hdecode := Client.decodeResponse_value hunwrap
      rw [Client.responseResult_of_not
        (show ¬FunctionCode.readHoldingRegisters.IsException by decide)] at hdecode
      exact ⟨_, hdecode,
        by rw [Result.andThen_value, readResponse_registers, readOutcome, if_neg hlost]⟩

/-- A read of a server it addresses calls the handler once. -/
theorem read_answered (hread : server.readHandler = some handler)
    (hunit : server.Addressed unit) (addr count : UInt16) :
    (readHoldingRegisters unit addr count).run (server.across extra)
      ⟨client, Server.quiet device calls⟩ =
      .ok (.registers (readOutcome (handler addr count device).1),
        ⟨client.advance, Server.quiet (handler addr count device).2
          (calls ++ [.read addr count (handler addr count device).1])⟩) := by
  have hturn := Server.processOne_addressed (unwrapTcp_readHolding unit addr count client) hunit
    (Server.handleRequest_read device calls client.nextTransactionId hread addr count)
  obtain ⟨result, hdecode, hresult⟩ := readAnswer_outcome server.unitId client.nextTransactionId
    (handler addr count device).1
  exact run_answered hturn hdecode (by rw [finish, hresult, pure_eq_ok])

theorem read_unaddressed (hunit : ¬server.Addressed unit) (addr count : UInt16) :
    (readHoldingRegisters unit addr count).run (server.across extra)
      ⟨client, Server.quiet device calls⟩ =
      .ok (.registers (.fail .timeoutExpired), ⟨client.advance, Server.quiet device calls⟩) :=
  run_unaddressed extra client device calls (unwrapTcp_readHolding unit addr count client) hunit rfl

/-- A successful read returns the handler's registers, whole and for this address
and count, and an error code the handler fails with comes back as it is. -/
def ReadsExactly (server : Server σ) (unit : UInt8) (addr count : UInt16) : Prop :=
  ∃ out s' made, (readHoldingRegisters unit addr count).run (server.across extra)
    ⟨client, Server.quiet device calls⟩ = .ok (.registers out, s') ∧
    s'.net.calls = calls ++ made ∧
    (∀ regs, out = .value regs → made = [.read addr count (.value regs)]) ∧
    ∀ e, e ≠ ErrorCode.success → .read addr count (.fail e) ∈ made → out = .fail e

/-- The verdicts that survive the way back: a count the length field can hold, or
one that leaves no frame at all; an error code of one byte. -/
def Survives (count : UInt16) : Result (List UInt16) → Prop
  | .value _ => count.toNat < 32768 ∨ count.toNat = 65535
  | .failure ec => ∀ e, ec = makeErrorCode e → e ≠ .success → e.FitsByte

theorem toNat_ofInt_eq_iff {v : ℤ} (hv : v ≠ 0) :
    ((UInt8.ofInt v).toNat : ℤ) = v ↔ 0 < v ∧ v < 256 := by
  have hbyte : (UInt8.ofInt v).toNat = (v % 256).toNat % 256 := UInt8.toNat_ofNat'
  rw [hbyte]
  omega

theorem readOutcome_value {regs : List UInt16} (hlen : regs.length = count.toNat) :
    (∀ regs', readOutcome (.value regs) = .value regs' → regs = regs') ↔
      Survives count (.value regs) := by
  have hmax := count.toNat_lt
  rw [readOutcome, Survives]
  split_ifs with hlost
  · simp only [Result.fail, reduceCtorEq, false_imp_iff, implies_true, true_iff]
    omega
  · simp only [Result.value.injEq, forall_eq']
    constructor
    · intro hwhole
      have htake := congrArg List.length hwhole
      rw [List.length_take] at htake
      omega
    · intro hcount
      exact (List.take_of_length_le (by omega)).symm

theorem readOutcome_failure {e : ErrorCode} (he : e ≠ .success) :
    readOutcome (.fail e) = .fail e ↔ e.FitsByte := by
  have hne : e.value ≠ 0 := fun h0 => he (congrArg ErrorCode.mk h0)
  rw [ErrorCode.FitsByte, ← toNat_ofInt_eq_iff hne]
  constructor
  · intro hsame
    exact congrArg ErrorCode.value (makeErrorCode_injective (Result.failure.inj hsame))
  · intro hvalue
    exact congrArg (fun v => Result.failure (makeErrorCode ⟨v⟩)) hvalue

theorem readOutcome_exact_iff {verdict : Result (List UInt16)}
    (hlen : ∀ regs, verdict = .value regs → regs.length = count.toNat) :
    ((∀ regs, readOutcome verdict = .value regs → verdict = .value regs) ∧
      ∀ e, e ≠ ErrorCode.success → verdict = .fail e → readOutcome verdict = .fail e) ↔
        Survives count verdict := by
  cases verdict with
  | value regs =>
    rw [← readOutcome_value (hlen regs rfl)]
    simp [Result.fail]
  | failure ec =>
    constructor
    · rintro ⟨-, herror⟩ e rfl he
      exact (readOutcome_failure he).mp (herror e he rfl)
    · intro hfits
      refine ⟨by intro regs h; contradiction, ?_⟩
      intro e he hfail
      rw [hfail, readOutcome_failure he]
      exact hfits e (Result.failure.inj hfail) he

/-- Reads are exact on exactly the counts and error codes that survive. -/
theorem readsExactly_iff (hread : server.readHandler = some handler)
    (hexact : ∀ addr count device regs, (handler addr count device).1 = .value regs →
      regs.length = count.toNat)
    (unit : UInt8) (addr count : UInt16) :
    ReadsExactly extra client device calls server unit addr count ↔
      (server.Addressed unit → Survives count (handler addr count device).1) := by
  by_cases hunit : server.Addressed unit
  · have hrun := read_answered extra client device calls hread hunit addr count
    rw [← readOutcome_exact_iff (hexact addr count device)]
    constructor
    · rintro ⟨out, s', made, hout, hmade, hvalue, herror⟩ -
      rw [hrun, Except.ok.injEq, Prod.mk.injEq, Outcome.registers.injEq] at hout
      obtain ⟨rfl, rfl⟩ := hout
      obtain rfl := List.append_cancel_left hmade
      constructor
      · intro regs hregs
        exact (HandlerCall.read.inj (List.singleton_inj.mp (hvalue regs hregs))).2.2
      · intro e he hfail
        exact herror e he (by rw [hfail]; exact List.mem_singleton_self _)
    · intro hverdict
      obtain ⟨hvalue, herror⟩ := hverdict hunit
      refine ⟨_, _, _, hrun, rfl, ?_, ?_⟩
      · intro regs hregs
        rw [hvalue regs hregs]
      · intro e he hmem
        exact herror e he (HandlerCall.read.inj (List.mem_singleton.mp hmem)).2.2.symm
  · have hrun := read_unaddressed extra client device calls hunit addr count
    refine ⟨fun _ h => absurd h hunit, fun _ => ⟨_, _, [], hrun, (List.append_nil _).symm, ?_, ?_⟩⟩
    · simp [Result.fail]
    · simp

/-- A server that returns the requested number of equal registers. -/
def filling (reg : UInt16) : Server Unit :=
  ⟨1, some fun _ count d => (.value (List.replicate count.toNat reg), d), none⟩

theorem filling_readHandler (reg : UInt16) :
    (filling reg).readHandler = some fun _ count d =>
      (.value (List.replicate count.toNat reg), d) := rfl

theorem readsExactly_two : ReadsExactly 0 {} () [] (filling 7) 1 0 2 :=
  (readsExactly_iff 0 {} () [] (filling_readHandler 7)
    (by intro _ _ _ _ h; cases h; exact List.length_replicate) 1 0 2).mpr fun _ =>
      Or.inl (by decide)

/-- Of 32768 registers the client returns none, and reports success. -/
theorem readsExactly_none_left : ¬ReadsExactly 0 {} () [] (filling 7) 1 0 32768 := by
  have hrun := read_answered 0 {} () [] (filling_readHandler 7)
    (show (filling 7).Addressed 1 from Or.inl rfl) 0 32768
  rintro ⟨out, s', made, hout, hmade, hvalue, -⟩
  rw [hrun, Except.ok.injEq, Prod.mk.injEq, Outcome.registers.injEq] at hout
  obtain ⟨rfl, rfl⟩ := hout
  obtain rfl := List.append_cancel_left hmade
  have hwraps : (32768 : UInt16).toNat % 32768 = 0 := by decide
  have hempty : readOutcome (.value (List.replicate (32768 : UInt16).toNat 7)) = .value [] := by
    rw [readOutcome, List.length_replicate, hwraps, if_neg (by decide), List.take_zero]
  have hcall := (HandlerCall.read.inj (List.singleton_inj.mp (hvalue [] hempty))).2.2
  have hlen := congrArg List.length (Result.value.inj hcall)
  rw [List.length_replicate, List.length_nil] at hlen
  exact absurd hlen (by decide)

end ModbusPp.Operation

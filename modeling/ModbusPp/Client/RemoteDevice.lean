import ModbusPp.Client.Reads
import ModbusPp.Client.Writes
import ModbusPp.Foundation.Machine
import ModbusPp.Foundation.Run

/-! A device behind the wire. In any run of reads and writes the server's handlers are
called as if the caller held them in its own hands: in the same order, with the same
arguments and on the same device states. Only their verdicts may change on the way back. -/

namespace ModbusPp

open Foundation Operation

/-- A call on the registers of a device. -/
inductive RegisterCall
  | read (addr count : UInt16)
  | writeSingle (addr value : UInt16)
  | writeMultiple (addr : UInt16) (values : List UInt16)

namespace RegisterCall

/-- The call over the wire. -/
def operation (unit : UInt8) : RegisterCall → Operation
  | read addr count => .readHoldingRegisters unit addr count
  | writeSingle addr value => .writeSingleRegister unit addr value
  | writeMultiple addr values => .writeMultipleRegisters unit addr values

/-- The registers to write, if any, fit one frame. -/
def Short : RegisterCall → Prop
  | writeMultiple _ values => values.length ≤ 32764
  | _ => True

instance : (call : RegisterCall) → Decidable call.Short
  | read _ _ | writeSingle _ _ => .isTrue trivial
  | writeMultiple _ values => inferInstanceAs (Decidable (values.length ≤ 32764))

section perform

variable {σ : Type} (reading : ReadHandler σ) (writing : WriteHandler σ)

/-- The call made on the handlers themselves. -/
def perform : RegisterCall → σ → HandlerCall × σ
  | read addr count, device =>
      (.read addr count (reading addr count device).1, (reading addr count device).2)
  | writeSingle addr value, device =>
      (.write addr [value] (writing addr [value] device).1, (writing addr [value] device).2)
  | writeMultiple addr values, device =>
      (.write addr values (writing addr values device).1, (writing addr values device).2)

end perform

end RegisterCall

namespace HandlerCall

/-- What a caller of the handler learns. -/
def outcome : HandlerCall → Outcome
  | read _ _ verdict => .registers verdict
  | write _ _ verdict => .done verdict

/-- What the client learns of the call. -/
def carried : HandlerCall → Outcome
  | read _ _ verdict => .registers (readOutcome verdict)
  | write _ _ _ => .done .ok

/-- The verdict has a representation on the wire: registers that fit one frame, an error code
of one byte, or the acceptance of a write. -/
def Faithful : HandlerCall → Prop
  | read _ _ (.value regs) => regs.length ≤ 32766
  | read _ _ (.failure ec) => ec.category = .modbus ∧ 0 ≤ ec.value ∧ ec.value < 256
  | write _ _ verdict => verdict = .ok

theorem readOutcome_failure_iff {ec : StdErrorCode} :
    readOutcome (.failure ec) = .failure ec ↔ ec.category = .modbus ∧
    0 ≤ ec.value ∧ ec.value < 256 := by
  obtain ⟨value, category⟩ := ec
  have hbyte : (UInt8.ofInt value).toNat = (value % 256).toNat % 256 := UInt8.toNat_ofNat'
  simp only [readOutcome, Result.failure.injEq, makeErrorCode, StdErrorCode.mk.injEq, hbyte]
  constructor
  · rintro ⟨hvalue, rfl⟩
    exact ⟨rfl, by omega, by omega⟩
  · rintro ⟨rfl, hlow, hhigh⟩
    exact ⟨by omega, rfl⟩

theorem readOutcome_value_iff {regs : List UInt16} :
    readOutcome (.value regs) = .value regs ↔ regs.length ≤ 32766 := by
  rw [readOutcome]
  split_ifs with hlost
  · constructor
    · intro h
      cases h
    · intro h
      omega
  · rw [Result.value.injEq, List.take_eq_self_iff]
    omega

/-- The client learns what the handler said exactly if the wire can say it. -/
theorem carried_eq_outcome_iff (call : HandlerCall) :
    call.carried = call.outcome ↔ call.Faithful := by
  cases call with
  | read addr count verdict =>
    rw [carried, outcome, Outcome.registers.injEq]
    cases verdict with
    | value regs => exact readOutcome_value_iff
    | failure ec => exact readOutcome_failure_iff
  | write addr values verdict =>
    rw [carried, outcome, Outcome.done.injEq]
    exact eq_comm

end HandlerCall

namespace RegisterCall

variable {σ : Type} {server : Server σ} {reading : ReadHandler σ}
  {writing : WriteHandler σ} {unit : UInt8}

theorem operation_run (hread : server.readHandler = some reading)
    (hwrite : server.writeHandler = some writing) (hunit : server.Addressed unit)
    {call : RegisterCall} (hshort : call.Short) (extra : ℕ) (client : Client) (device : σ)
    (log : List HandlerCall) :
    (call.operation unit).run (server.across extra) ⟨client, Server.quiet device log⟩ =
      .ok ((call.perform reading writing device).1.carried, ⟨client.advance,
        Server.quiet (call.perform reading writing device).2
          (log ++ [(call.perform reading writing device).1])⟩) := by
  cases call with
  | read addr count => exact read_answered extra client device log hread hunit addr count
  | writeSingle addr value =>
    exact writeSingle_answered extra client device log hwrite hunit addr value
  | writeMultiple addr values =>
    have hlen : values.length ≤ 32764 := hshort
    have hwhole : values.take (values.length % 32768) = values := List.take_of_length_le (by omega)
    have hrun := writeMultiple_answered extra client device log hwrite hunit addr
      (show values.length % 32768 ≤ 32764 by omega)
    rwa [hwhole] at hrun

/-- A run over the wire is the run of the calls themselves, but for what comes back. -/
theorem runAll_operation (hread : server.readHandler = some reading)
    (hwrite : server.writeHandler = some writing) (hunit : server.Addressed unit)
    (extra : ℕ) {calls : List RegisterCall} (hshort : ∀ call ∈ calls, call.Short)
    (client : Client) (device : σ) (log : List HandlerCall) :
    runAll (fun call : RegisterCall => (call.operation unit).run (server.across extra)) calls
        ⟨client, Server.quiet device log⟩ =
      .ok ((feed (perform reading writing) calls device).1.map HandlerCall.carried,
        ⟨Client.advance^[calls.length] client,
          Server.quiet (feed (perform reading writing) calls device).2
          (log ++ (feed (perform reading writing) calls device).1)⟩) := by
  induction calls generalizing client device log with
  | nil => rw [runAll, feed, List.append_nil]; rfl
  | cons call calls ih =>
    obtain ⟨hfirst, hrest⟩ := List.forall_mem_cons.mp hshort
    have hcall := operation_run hread hwrite hunit hfirst extra client device log
    have hothers := ih hrest client.advance (call.perform reading writing device).2
      (log ++ [(call.perform reading writing device).1])
    rw [List.append_assoc, List.singleton_append] at hothers
    exact runAll_cons.mpr ⟨_, _, _, hcall, hothers, rfl⟩

/-- Against a server with both handlers every run of register calls calls the handlers as a
local caller would and leaves the device as they leave it, with nothing under way; and the
client learns all of their verdicts exactly if each of them has a representation on the wire. -/
theorem remote_device (hread : server.readHandler = some reading)
    (hwrite : server.writeHandler = some writing) (hunit : server.Addressed unit)
    (extra : ℕ) {calls : List RegisterCall} (hshort : ∀ call ∈ calls, call.Short)
    (client : Client) (device : σ) (log : List HandlerCall) :
    ∃ outs client',
      runAll (fun call : RegisterCall => (call.operation unit).run (server.across extra)) calls
        ⟨client, Server.quiet device log⟩ =
      .ok (outs, ⟨client', Server.quiet (feed (perform reading writing) calls device).2
        (log ++ (feed (perform reading writing) calls device).1)⟩) ∧
      (outs = (feed (perform reading writing) calls device).1.map HandlerCall.outcome ↔
        ∀ made ∈ (feed (perform reading writing) calls device).1, made.Faithful) := by
  refine ⟨_, _, runAll_operation hread hwrite hunit extra hshort client device log, ?_⟩
  rw [List.map_inj_left]
  exact forall₂_congr fun made _ => made.carried_eq_outcome_iff

/-- A device that has one register for every address and refuses all writes. -/
def readOnly : Server Unit :=
  ⟨1, some fun _ count d => (.value (List.replicate count.toNat 7), d),
    some fun _ _ d => (.fail .illegalDataAddress, d)⟩

/-- The client reads what is there, and is not told of the refusal. -/
theorem remote_device_refuses :
    ∃ outs s', runAll (fun call : RegisterCall => (call.operation 1).run (readOnly.across 0))
      [.writeSingle 3 5, .read 3 2]
        ⟨{}, Server.quiet () []⟩ = .ok (outs, s') ∧
      outs ≠ [.done (.fail .illegalDataAddress), .registers (.value [7, 7])] := by
  have hshort : ∀ call ∈ [writeSingle 3 5, read 3 2], call.Short := by decide
  obtain ⟨outs, client', hrun, hfaithful⟩ :=
    remote_device (show readOnly.readHandler = some _ from rfl)
    (show readOnly.writeHandler = some _ from rfl) (Or.inl rfl) 0 hshort {} () []
  refine ⟨outs, _, hrun, fun hlocal => ?_⟩
  have hrefused : VoidResult.fail .illegalDataAddress = .ok :=
    hfaithful.mp hlocal _ List.mem_cons_self
  exact absurd hrefused (by decide)

end RegisterCall

end ModbusPp

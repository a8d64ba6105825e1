import ModbusPp.Client.RemoteDevice
import ModbusPp.Foundation.Memory

/-! A register file behind the wire. Where the handlers serve a memory, a client sees it:
each register it reads holds what it wrote there last, or what was there before. -/

namespace ModbusPp

open Foundation

/-- The handlers serve a memory of `size` registers. -/
structure RegisterFile {σ : Type} (reading : ReadHandler σ)
    (writing : WriteHandler σ) (contents : σ → ℕ → UInt16) (size : ℕ) : Prop where
  read : ∀ addr count device, addr.toNat + count.toNat ≤ size →
    (reading addr count device).1 = .value (window (contents device) addr.toNat count.toNat) ∧
      contents (reading addr count device).2 = contents device
  write : ∀ addr values device, addr.toNat + values.length ≤ size →
    (writing addr values device).1 = .ok ∧
      contents (writing addr values device).2 = Patch.write (contents device) ⟨addr.toNat, values⟩

namespace RegisterCall

/-- The registers are among the first `size`, and no more than one frame holds. -/
def Within (size : ℕ) : RegisterCall → Prop
  | read addr count => addr.toNat + count.toNat ≤ size ∧ count.toNat ≤ 32766
  | writeSingle addr _ => addr.toNat + 1 ≤ size
  | writeMultiple addr values => addr.toNat + values.length ≤ size ∧ values.length ≤ 32764

theorem Within.short {size : ℕ} {call : RegisterCall} (h : call.Within size) : call.Short := by
  cases call with
  | read | writeSingle => trivial
  | writeMultiple => exact h.2

/-- What the call writes. -/
def patches : RegisterCall → List (Patch UInt16)
  | read _ _ => []
  | writeSingle addr value => [⟨addr.toNat, [value]⟩]
  | writeMultiple addr values => [⟨addr.toNat, values⟩]

/-- The call on the memory. -/
def onMemory (call : RegisterCall) (mem : ℕ → UInt16) : Outcome × (ℕ → UInt16) :=
  match call with
  | read addr count => (.registers (.value (window mem addr.toNat count.toNat)), mem)
  | writeSingle _ _ => (.done .ok, call.patches.foldl Patch.write mem)
  | writeMultiple _ _ => (.done .ok, call.patches.foldl Patch.write mem)

theorem onMemory_snd (call : RegisterCall) (mem : ℕ → UInt16) :
    (call.onMemory mem).2 = call.patches.foldl Patch.write mem := by
  cases call <;> rfl

theorem feed_onMemory_snd (calls : List RegisterCall) (mem : ℕ → UInt16) :
    (feed onMemory calls mem).2 = (calls.flatMap patches).foldl Patch.write mem := by
  induction calls generalizing mem with
  | nil => rfl
  | cons call calls ih => rw [feed, List.flatMap_cons, List.foldl_append, ih, onMemory_snd]

variable {σ : Type} {server : Server σ} {reading : ReadHandler σ}
  {writing : WriteHandler σ} {contents : σ → ℕ → UInt16}
  {size : ℕ} {unit : UInt8}

theorem perform_onMemory (hfile : RegisterFile reading writing contents size) {call : RegisterCall}
    (hwithin : call.Within size) (device : σ) :
    contents (call.perform reading writing device).2 = (call.onMemory (contents device)).2 ∧
      (call.perform reading writing device).1.carried = (call.onMemory (contents device)).1 := by
  cases call with
  | read addr count =>
    obtain ⟨hverdict, hkept⟩ := hfile.read addr count device hwithin.1
    have hcarried : (HandlerCall.read addr count (reading addr count device).1).Faithful := by
      rw [hverdict, HandlerCall.Faithful, length_window]
      exact hwithin.2
    refine ⟨hkept, ?_⟩
    rw [perform, (HandlerCall.carried_eq_outcome_iff _).mpr hcarried, HandlerCall.outcome, hverdict]
    rfl
  | writeSingle addr value => exact ⟨(hfile.write addr [value] device hwithin).2, rfl⟩
  | writeMultiple addr values => exact ⟨(hfile.write addr values device hwithin.1).2, rfl⟩

/-- A run over the wire is a run on the memory. -/
theorem runAll_onMemory (hread : server.readHandler = some reading)
    (hwrite : server.writeHandler = some writing) (hunit : server.Addressed unit)
    (hfile : RegisterFile reading writing contents size) (extra : ℕ)
    {calls : List RegisterCall} (hwithin : ∀ call ∈ calls, call.Within size)
    (client : Client) (device : σ) (log : List HandlerCall) :
    ∃ client' device' log',
      runAll (fun call : RegisterCall => (call.operation unit).run (server.across extra)) calls
        ⟨client, Server.quiet device log⟩ =
      .ok ((feed onMemory calls (contents device)).1, ⟨client', Server.quiet device' log'⟩) ∧
      contents device' = (feed onMemory calls (contents device)).2 := by
  have hfollows : contents (feed (perform reading writing) calls device).2 =
    (feed onMemory calls (contents device)).2 ∧
      List.Forall₂ (fun made out => HandlerCall.carried made = out)
        (feed (perform reading writing) calls device).1
        (feed onMemory calls (contents device)).1 :=
    feed_follows (fun device mem => contents device = mem) _
      (fun call hcall device mem hmem => hmem ▸ perform_onMemory hfile (hwithin call hcall) device)
        rfl
  obtain ⟨hstate, houts⟩ := hfollows
  rw [← List.forall₂_map_left_iff (R := fun out out' => out = out'), List.forall₂_eq_eq_eq] at houts
  rw [← houts]
  exact ⟨_, _, _, runAll_operation hread hwrite hunit extra
    (fun call hcall => (hwithin call hcall).short) client device log,
    hstate⟩

/-- What the call returns after the calls before it: a register that is read holds what
was written there last, or what was there at first. -/
def expected (initial : ℕ → UInt16) (before : List RegisterCall) : RegisterCall → Outcome
  | read addr count => .registers (.value ((List.range count.toNat).map fun k =>
      (lastWritten (before.flatMap patches) (addr.toNat + k)).getD (initial (addr.toNat + k))))
  | writeSingle _ _ | writeMultiple _ _ => .done .ok

theorem onMemory_fst (call : RegisterCall) (before : List RegisterCall) (initial : ℕ → UInt16) :
    (call.onMemory (feed onMemory before initial).2).1 = call.expected initial before := by
  cases call with
  | read addr count =>
    rw [feed_onMemory_snd, onMemory, expected]
    simp only [window, foldl_write]
  | writeSingle | writeMultiple => rfl

/-- A client of a register file sees a memory: in every run of reads and writes inside it,
every write succeeds, every read returns the registers as they were written last, and the
device is left with all that was written. -/
theorem remote_registers (hread : server.readHandler = some reading)
    (hwrite : server.writeHandler = some writing) (hunit : server.Addressed unit)
    (hfile : RegisterFile reading writing contents size) (extra : ℕ)
    {calls : List RegisterCall} (hwithin : ∀ call ∈ calls, call.Within size)
    (client : Client) (device : σ) (log : List HandlerCall) :
    ∃ outs client' device' log',
      runAll (fun call : RegisterCall => (call.operation unit).run (server.across extra)) calls
        ⟨client, Server.quiet device log⟩ = .ok (outs, ⟨client', Server.quiet device' log'⟩) ∧
      (∀ k, outs[k]? = calls[k]?.map (expected (contents device) (calls.take k))) ∧
      ∀ n, contents device' n = (lastWritten (calls.flatMap patches) n).getD
        (contents device n) := by
  obtain ⟨client', device', log', hrun, hstate⟩ :=
    runAll_onMemory hread hwrite hunit hfile extra hwithin client device log
  refine ⟨_, client', device', log', hrun, fun k => ?_, fun n => ?_⟩
  · rw [feed_getElem?]
    simp only [onMemory_fst]
  · rw [hstate, feed_onMemory_snd, foldl_write]

/-- A server whose device is the memory itself. -/
def memoryServer : Server (ℕ → UInt16) where
  readHandler := some fun addr count mem => (.value (window mem addr.toNat count.toNat), mem)
  writeHandler := some fun addr values mem => (.ok, Patch.write mem ⟨addr.toNat, values⟩)

theorem registerFile_memory (size : ℕ) : RegisterFile
    (fun addr count mem => (.value (window mem addr.toNat count.toNat), mem))
    (fun addr values mem => (.ok, Patch.write mem ⟨addr.toNat, values⟩)) id size where
  read _ _ _ _ := ⟨rfl, rfl⟩
  write _ _ _ _ := ⟨rfl, rfl⟩

/-- Two overlapping writes, read back. -/
theorem remote_registers_overlapping : ∃ s', runAll
    (fun call : RegisterCall => (call.operation 1).run (memoryServer.across 0))
      [.writeMultiple 3 [7, 8], .writeSingle 4 9, .read 3 3] ⟨{}, Server.quiet (fun _ => 0) []⟩ =
    .ok ([.done .ok, .done .ok, .registers (.value [7, 9, 0])], s') := by
  have hwithin : ∀ call ∈ [writeMultiple 3 [7, 8], writeSingle 4 9, read 3 3], call.Within 10 := by
    simp [Within]
  obtain ⟨outs, client', device', log', hrun, houts, -⟩ := remote_registers
    (show memoryServer.readHandler = some _ from rfl)
      (show memoryServer.writeHandler = some _ from rfl) (Or.inl rfl)
    (registerFile_memory 10) 0 hwithin {} (fun _ => 0) []
  have hlist : outs = [.done .ok, .done .ok, .registers (.value [7, 9, 0])] := by
    refine List.ext_getElem? fun k => ?_
    rw [houts]
    rcases k with _ | _ | _ | k <;> rfl
  rw [hlist] at hrun
  exact ⟨_, hrun⟩

end RegisterCall

end ModbusPp

import ModbusPp.Client.RemoteRegisters
import ModbusPp.RegisterMap.RegisterMap
import ModbusPp.RegisterMap.StringCodec

/-! Typed values behind the wire. A slot of a register map is set by sending the registers
of a value to the slot's address, and got by decoding the registers there. The slots of a
map that lies in a register file do not touch each other, so each of them is a variable. -/

namespace ModbusPp.RegisterMap

open Foundation TypeCodec

/-- A value that its registers determine; only strings may have none. -/
def Storable (count : UInt16) : (type : RegisterType) → type.Value → Prop
  | .string, str => (∀ c ∈ str, c ≠ 0) ∧ str.length ≤ 2 * count.toNat ∧
      SignsHarmless str count.toNat
  | _, _ => True

theorem decodeString_of_storable {str : List UInt8} {count : UInt16}
    (h : Storable count .string str) :
    decodeString (.ofList (encodeString str count)) count = .ok str := by
  obtain ⟨hnonzero, hfits, hharmless⟩ := h
  have hdecode := decodeChars_packChars count.toNat str hnonzero [] []
  rw [List.nil_append, List.nil_append, List.length_nil,
    (smear_eq_iff str count.toNat).mpr hharmless,
    List.take_of_length_le hfits] at hdecode
  rwa [decodeString, encodeString_eq]

theorem valueFrom_of_storable {type : RegisterType} {order : Endian.ByteOrder}
    {count : UInt16} {value : type.Value} (hvalue : Storable count type value) {regs : Span UInt16}
    (h : ∀ k x, (registersFor type order count value)[k]? = some x → regs.read k = .ok x) :
    valueFrom type order count regs = .ok value := by
  by_cases htype : type = .string
  · subst htype
    refine (decodeString_congr fun k hk => ?_).trans (decodeString_of_storable hvalue)
    have hk : k < (encodeString value count).length := by rwa [length_encodeString]
    exact (h k _ (List.getElem?_eq_getElem hk)).trans
      ((Span.views_ofList _).read (List.getElem?_eq_getElem hk)).symm
  · exact valueFrom_registersFor htype value h

variable {m : RegisterMap}

/-- A call on a slot of the map. -/
inductive SlotCall (m : RegisterMap)
  | set (i : m.Index) (value : (m.descriptorAt i).type.Value)
  | get (i : m.Index)

namespace SlotCall

/-- The call on the registers of the slot. -/
def registerCall : SlotCall m → RegisterCall
  | set i value => .writeMultiple (m.descriptorAt i).address
    (registersFor (m.descriptorAt i).type (m.descriptorAt i).order (m.descriptorAt i).count value)
  | get i => .read (m.descriptorAt i).address (m.descriptorAt i).count

def Storable : SlotCall m → Prop
  | set i value => RegisterMap.Storable (m.descriptorAt i).count (m.descriptorAt i).type value
  | get _ => True

/-- The value the calls set the slot to last. -/
def lastSet (i : m.Index) : List (SlotCall m) → Option (m.descriptorAt i).type.Value
  | [] => none
  | set j value :: calls => (lastSet i calls).or (if h : j = i then some (h ▸ value) else none)
  | get _ :: calls => lastSet i calls

end SlotCall

/-- Every slot counts the registers of its type, fits one frame and lies in a register file
of this size, below the last address of the space. -/
structure InFile (m : RegisterMap) (size : ℕ) : Prop where
  wide : ∀ i, defaultRegisterCount (m.descriptorAt i).type ≤ (m.descriptorAt i).count
  short : ∀ i, (m.descriptorAt i).count.toNat ≤ 32764
  inside : ∀ i, (m.descriptorAt i).address.toNat + (m.descriptorAt i).count.toNat ≤ size
  below : ∀ i, (m.descriptorAt i).address.toNat + (m.descriptorAt i).count.toNat < 65536

/-- The check at compile time keeps the slots apart. -/
theorem InFile.apart {size : ℕ} (h : m.InFile size) {i j : m.Index} (hne : i ≠ j) :
    (m.descriptorAt i).Apart (m.descriptorAt j) := by
  have hspace : ∀ d ∈ m.descriptors, d.InSpace ∧ ¬d.EndsAtTop := by
    intro d hd
    obtain ⟨k, hk, rfl⟩ := List.mem_iff_getElem.mp hd
    have hbelow := h.below ⟨k, hk⟩
    exact ⟨hbelow.le, hbelow.ne⟩
  have hpairs := (noOverlaps_inSpace fun d hd => (hspace d hd).1).mp m.apart
  have hordered {i j : m.Index} (hlt : i < j) : (m.descriptorAt i).Apart (m.descriptorAt j) := by
    rcases List.pairwise_iff_getElem.mp hpairs i j i.isLt j.isLt hlt with htop | htop | hapart
    · exact absurd htop (hspace _ (List.getElem_mem _)).2
    · exact absurd htop (hspace _ (List.getElem_mem _)).2
    · exact hapart
  rcases lt_or_gt_of_ne hne with hlt | hgt
  · exact hordered hlt
  · exact fun n hi hj => hordered hgt n hj hi

/-- What the memory says of a slot: the registers of the value it was set to, or what it
held at first. -/
def Holds (initial mem : ℕ → UInt16) (i : m.Index) : Option (m.descriptorAt i).type.Value → Prop
  | some value => ∀ k x,
      (registersFor (m.descriptorAt i).type (m.descriptorAt i).order (m.descriptorAt i).count
      value)[k]? = some x → mem ((m.descriptorAt i).address.toNat + k) = x
  | none => ∀ k < (m.descriptorAt i).count.toNat,
      mem ((m.descriptorAt i).address.toNat + k) = initial ((m.descriptorAt i).address.toNat + k)

section Memory

variable {size : ℕ} {initial mem : ℕ → UInt16} {i : m.Index}

/-- A slot holds what it held if its own registers are as they were. -/
theorem Holds.congr
    (hwide : defaultRegisterCount (m.descriptorAt i).type ≤ (m.descriptorAt i).count)
    {mem' : ℕ → UInt16} {held : Option (m.descriptorAt i).type.Value} (h : Holds initial mem i held)
    (hsame : ∀ k < (m.descriptorAt i).count.toNat,
      mem' ((m.descriptorAt i).address.toNat + k) = mem ((m.descriptorAt i).address.toNat + k)) :
    Holds initial mem' i held := by
  cases held with
  | none => exact fun k hk => (hsame k hk).trans (h k hk)
  | some value =>
    intro k x hx
    have hk := (List.getElem?_eq_some_iff.mp hx).1.trans_le (length_registersFor_le hwide value)
    exact (hsame k hk).trans (h k x hx)

/-- One call on the registers of a slot changes what that slot holds, and no other. -/
theorem Holds.step (hfile : m.InFile size) (call : SlotCall m)
    {held : Option (m.descriptorAt i).type.Value} (h : Holds initial mem i held) :
    Holds initial (call.registerCall.onMemory mem).2 i ((SlotCall.lastSet i [call]).or held) := by
  cases call with
  | get j => exact h
  | set j value =>
    rw [SlotCall.lastSet, SlotCall.lastSet, Option.none_or]
    by_cases hslot : j = i
    · subst hslot
      rw [dif_pos rfl, Option.some_or]
      intro k x hx
      obtain ⟨hk, rfl⟩ := List.getElem?_eq_some_iff.mp hx
      exact Patch.write_inside hk
    · rw [dif_neg hslot, Option.none_or]
      refine h.congr (hfile.wide i) fun k hk => Patch.write_outside ?_
      rintro ⟨hlow, hhigh⟩
      have hlen := length_encode_le (hfile.wide j) value
      exact hfile.apart hslot _ ⟨hlow, by dsimp only at hhigh; omega⟩
        ⟨Nat.le_add_right _ _, by omega⟩

theorem SlotCall.lastSet_cons (i : m.Index) (call : SlotCall m) (calls : List (SlotCall m)) :
    lastSet i (call :: calls) = (lastSet i calls).or (lastSet i [call]) := by
  cases call with
  | get j => rw [lastSet, lastSet, lastSet, Option.or_none]
  | set j value => rw [lastSet, lastSet, lastSet, Option.none_or]

theorem Holds.feed (hfile : m.InFile size) (calls : List (SlotCall m))
    {held : Option (m.descriptorAt i).type.Value} (h : Holds initial mem i held) :
    Holds initial (Foundation.feed RegisterCall.onMemory (calls.map SlotCall.registerCall) mem).2 i
      ((SlotCall.lastSet i calls).or held) := by
  induction calls generalizing mem held with
  | nil => exact h
  | cons call calls ih =>
    rw [SlotCall.lastSet_cons, Option.or_assoc]
    exact ih (h.step hfile call)

/-- What registers read from a slot show: the value it was set to, or what it held at first. -/
def Shows (initial : ℕ → UInt16) (i : m.Index) (regs : List UInt16) :
    Option (m.descriptorAt i).type.Value → Prop
  | some value => decodeRegister (m.descriptorAt i) (.ofList regs) = .ok value
  | none => regs = window initial (m.descriptorAt i).address.toNat (m.descriptorAt i).count.toNat

theorem Holds.shows
    (hwide : defaultRegisterCount (m.descriptorAt i).type ≤ (m.descriptorAt i).count)
    {held : Option (m.descriptorAt i).type.Value} (h : Holds initial mem i held)
    (hheld : ∀ value ∈ held, RegisterMap.Storable (m.descriptorAt i).count
      (m.descriptorAt i).type value) :
    Shows initial i
      (window mem (m.descriptorAt i).address.toNat (m.descriptorAt i).count.toNat) held := by
  cases held with
  | none => exact window_congr h
  | some value =>
    refine valueFrom_of_storable (hheld value rfl) fun k x hx => ?_
    have hk := (List.getElem?_eq_some_iff.mp hx).1.trans_le (length_registersFor_le hwide value)
    refine (Span.views_ofList _).read ?_
    rw [window_getElem? mem _ hk, h k x hx]

theorem SlotCall.storable_lastSet {calls : List (SlotCall m)} (h : ∀ call ∈ calls, call.Storable) :
    ∀ value ∈ lastSet i calls,
      RegisterMap.Storable (m.descriptorAt i).count (m.descriptorAt i).type value := by
  induction calls with
  | nil => nofun
  | cons call calls ih =>
    obtain ⟨hfirst, hrest⟩ := List.forall_mem_cons.mp h
    intro value hvalue
    rw [lastSet_cons, Option.mem_def, Option.or_eq_some_iff] at hvalue
    rcases hvalue with hlater | ⟨-, hthis⟩
    · exact ih hrest value hlater
    · cases call with
      | get j => cases hthis
      | set j value' =>
        rw [lastSet, lastSet, Option.none_or] at hthis
        by_cases hslot : j = i
        · subst hslot
          rw [dif_pos rfl] at hthis
          exact Option.some.inj hthis ▸ hfirst
        · rw [dif_neg hslot] at hthis
          cases hthis

theorem SlotCall.within (hfile : m.InFile size) (call : SlotCall m) :
    call.registerCall.Within size := by
  cases call with
  | get i =>
    have hshort := hfile.short i
    exact ⟨hfile.inside i, by omega⟩
  | set i value =>
    have hlen := length_encode_le (hfile.wide i) value
    have hinside := hfile.inside i
    have hshort := hfile.short i
    exact ⟨by omega, by omega⟩

end Memory

section Remote

variable {σ : Type} {server : Server σ} {reading : ReadHandler σ}
  {writing : WriteHandler σ} {contents : σ → ℕ → UInt16}
  {size : ℕ} {unit : UInt8}

/-- The slots of a map in a register file are variables, seen from a client: in every run of
sets and gets, every set succeeds, and every get returns registers that decode to the value
the slot was set to last, whatever was set in the other slots since. -/
theorem remote_slots (hread : server.readHandler = some reading)
    (hwrite : server.writeHandler = some writing) (hunit : server.Addressed unit)
    (hfile : RegisterFile reading writing contents size) (hm : m.InFile size) (extra : ℕ)
    {calls : List (SlotCall m)} (hstorable : ∀ call ∈ calls, call.Storable)
    (client : Client) (device : σ) (log : List HandlerCall) :
    ∃ outs s', runAll
      (fun call : SlotCall m => (call.registerCall.operation unit).run (server.across extra)) calls
        ⟨client, Server.quiet device log⟩ = .ok (outs, s') ∧
      (∀ (k : ℕ) (i : m.Index) value, calls[k]? = some (.set i value) →
        outs[k]? = some (.done .ok)) ∧
      ∀ (k : ℕ) (i : m.Index), calls[k]? = some (.get i) → ∃ regs,
        outs[k]? = some (.registers (.value regs)) ∧
        Shows (contents device) i regs (SlotCall.lastSet i (calls.take k)) := by
  have hwithin : ∀ call ∈ calls.map SlotCall.registerCall, call.Within size := by
    intro call hcall
    obtain ⟨slotCall, -, rfl⟩ := List.mem_map.mp hcall
    exact slotCall.within hm
  obtain ⟨client', device', log', hrun, -⟩ :=
    RegisterCall.runAll_onMemory hread hwrite hunit hfile extra hwithin client device log
  rw [runAll_map] at hrun
  refine ⟨_, _, hrun, fun k i value hcall => ?_, fun k i hcall => ?_⟩
  · rw [feed_getElem?, List.getElem?_map, hcall]
    rfl
  · have hbefore : ∀ call ∈ calls.take k, call.Storable :=
      fun call hmem => hstorable call (List.mem_of_mem_take hmem)
    have hfirst : Holds (contents device) (contents device) i none := fun _ _ => rfl
    have hheld := hfirst.feed hm (calls.take k)
    rw [Option.or_none] at hheld
    refine ⟨_, ?_, hheld.shows (hm.wide i) (SlotCall.storable_lastSet hbefore)⟩
    rw [feed_getElem?, List.getElem?_map, hcall, ← List.map_take]
    rfl

/-- A temperature, a status and a pressure, as a map. -/
def sensorMap : RegisterMap where
  descriptors := sensors
  nonempty := by decide
  fits := by decide
  apart := by rw [noOverlaps_iff]; decide

theorem sensorMap_inFile : sensorMap.InFile 16 where
  wide := by decide
  short := by decide
  inside := by decide
  below := by decide

/-- The temperature is set, then the status next to it, and the temperature is read back. -/
theorem remote_slots_temperature : ∃ outs s' regs, runAll
    (fun call : SlotCall sensorMap => (call.registerCall.operation 1).run
      (RegisterCall.memoryServer.across 0))
      [.set ⟨0, by decide⟩ ⟨0x42C53333⟩, .set ⟨1, by decide⟩ (5 : UInt16), .get ⟨0, by decide⟩]
      ⟨{}, Server.quiet (fun _ => 0) []⟩ = .ok (outs, s') ∧
    outs[2]? = some (.registers (.value regs)) ∧
    decodeRegister (sensorMap.descriptorAt ⟨0, by decide⟩) (.ofList regs) = .ok ⟨0x42C53333⟩ := by
  have hstorable : ∀ call ∈ [SlotCall.set (m := sensorMap) ⟨0, by decide⟩ ⟨0x42C53333⟩,
      .set ⟨1, by decide⟩ (5 : UInt16), .get ⟨0, by decide⟩], call.Storable := by
    intro call hcall
    fin_cases hcall <;> trivial
  obtain ⟨outs, s', hrun, -, hget⟩ :=
    remote_slots (show RegisterCall.memoryServer.readHandler = some _ from rfl)
    (show RegisterCall.memoryServer.writeHandler = some _ from rfl) (Or.inl rfl)
      (RegisterCall.registerFile_memory 16)
    sensorMap_inFile 0 hstorable {} (fun _ => 0) []
  obtain ⟨regs, hregs, hshows⟩ := hget 2 ⟨0, by decide⟩ rfl
  exact ⟨outs, s', regs, hrun, hregs, hshows⟩

end Remote

end ModbusPp.RegisterMap

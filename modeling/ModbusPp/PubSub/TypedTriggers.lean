import ModbusPp.PubSub.DeadBand
import ModbusPp.PubSub.PublisherRuns
import ModbusPp.PubSub.Slices
import ModbusPp.PubSub.TypedDeadBands
import ModbusPp.PubSub.TypedThresholds

/-! Triggers of typed subscriptions. `should_notify` looks at the registers, and not at the
values that the type and the byte order of the request make of them. Both tests agree on
every pair of readings only where the dead band lets nothing through or every change, and
where the thresholds do not tell the numbers in question apart. -/

namespace ModbusPp

open Foundation

namespace IntegerType

/-- The largest distance of two values, or of two registers if there is no value. -/
def farthest (ty : IntegerType) (count : ℕ) : ℕ :=
  if count < ty.width then 65535 else
    match ty with
    | int16 => 65535
    | uint32 => 4294967295
    | int32 => 4294967295

end IntegerType

namespace SubscriptionRequest

/-- The test of `should_notify`, for a trigger that looks at the registers. -/
def registersTrigger (request : SubscriptionRequest) (current previous : List UInt16) : Bool :=
  match request.trigger with
  | .onChange => changed request.deadBand current previous
  | .onThreshold => outsideThresholds request current
  | .periodic => false

/-- The same test on the values: any of them may change, and the first is the one that is
compared with the thresholds. -/
def valuesTrigger (request : SubscriptionRequest) (current previous : List ℤ) : Bool :=
  match request.trigger with
  | .onChange => (current.zip previous).any fun (c, p) => request.deadBand.below (c - p).natAbs
  | .onThreshold => current.head?.any request.outside
  | .periodic => false

/-- Both tests agree on all readings that have the registers of the request. -/
def Agrees (request : SubscriptionRequest) (ty : IntegerType) (order : Endian.ByteOrder) : Prop :=
  ∀ current previous : List UInt16, current.length = request.count.toNat →
    previous.length = request.count.toNat →
    request.registersTrigger current previous =
      request.valuesTrigger (ty.values order current) (ty.values order previous)

/-- It makes no difference whether the trigger looks at the registers or at the values. -/
def Indifferent (request : SubscriptionRequest) (ty : IntegerType) : Prop :=
  match request.trigger with
  | .onChange => 0 < request.count.toNat ∧
      (request.deadBand.below (ty.farthest request.count.toNat) = false ∨
        ty.width ≤ request.count.toNat ∧
        request.deadBand.below (if ty.width ∣ request.count.toNat then 1 else 0) = true)
  | .onThreshold =>
    if ty.width ≤ request.count.toNat then request.Uniform ty.Confused
    else ∀ x : ℕ, x < 65536 * request.count.toNat → request.outside x = false
  | .periodic => True

variable {request : SubscriptionRequest}

theorem changes_agree_iff (ty : IntegerType) (order : Endian.ByteOrder)
    (htrigger : request.trigger = .onChange) :
    request.Agrees ty order ↔ request.Indifferent ty := by
  simp only [Agrees, registersTrigger, valuesTrigger, Indifferent, htrigger]
  rcases Nat.eq_zero_or_pos request.count.toNat with hzero | hpos
  · -- no registers count as a first reading
    refine iff_of_false (fun hagree => ?_) fun hcond => hcond.1.ne' hzero
    have hempty := hagree [] [] hzero.symm hzero.symm
    rw [IntegerType.values_nil] at hempty
    cases hempty
  rw [and_iff_right hpos]
  cases ty with
  | int16 =>
    have hrows : (∀ current previous : List UInt16, current.length = request.count.toNat →
          previous.length = request.count.toNat →
          changed request.deadBand current previous =
            ((current.map int16Value).zip (previous.map int16Value)).any fun (c, p) =>
              request.deadBand.below (c - p).natAbs) ↔
        ∀ current previous : List UInt16, current.length = request.count.toNat →
          previous.length = request.count.toNat →
          ((current.zip previous).any fun p => request.deadBand.below (registerDistance p.1 p.2)) =
            (current.zip previous).any fun p =>
              request.deadBand.below (valueDistance int16Value p.1 p.2) := by
      refine forall₄_congr fun current previous _ hprevious => ?_
      rw [changed_eq hpos hprevious, any_values]
    refine hrows.trans ((spread_int16.rows_agree_iff hpos).trans ?_)
    have hfar : IntegerType.int16.farthest request.count.toNat = 65535 := ite_self _
    have hwhole : IntegerType.int16.width ∣ request.count.toNat := one_dvd _
    rw [hfar, if_pos hwhole,
      and_iff_right (show IntegerType.int16.width ≤ request.count.toNat from hpos), or_comm]
  | uint32 =>
    simp only [IntegerType.uint32_values, any_values]
    exact rowsAgree_iff_deadBand .unsigned hpos
  | int32 =>
    simp only [IntegerType.int32_values, any_values]
    exact rowsAgree_iff_deadBand .signed hpos

theorem thresholds_agree_iff (ty : IntegerType) (order : Endian.ByteOrder)
    (htrigger : request.trigger = .onThreshold) :
    request.Agrees ty order ↔ request.Indifferent ty := by
  have hcurrent : request.Agrees ty order ↔ ∀ current : List UInt16,
    current.length = request.count.toNat →
      outsideThresholds request current = (ty.values order current).head?.any request.outside := by
    simp only [Agrees, registersTrigger, valuesTrigger, htrigger]
    exact ⟨fun hagree current h => hagree current current h h,
      fun hagree current _ h _ => hagree current h⟩
  rw [hcurrent]
  simp only [Indifferent, htrigger]
  cases ty with
  | int16 =>
    simp only [outsideThresholds_eq, IntegerType.values]
    by_cases hlong : IntegerType.int16.width ≤ request.count.toNat
    · rw [if_pos hlong, ← int16_outside_iff]
      constructor
      · intro hagree reg
        have hpos : 0 < request.count.toNat := hlong
        exact hagree (reg :: List.replicate (request.count.toNat - 1) 0)
          (by rw [List.length_cons, List.length_replicate, Nat.sub_add_cancel hpos])
      · intro hagree current hlength
        cases current with
        | nil => rfl
        | cons reg regs => exact hagree reg
    · rw [if_neg hlong]
      have hzero : request.count.toNat = 0 := Nat.eq_zero_of_not_pos hlong
      refine iff_of_true (fun current hlength => ?_) fun x hx => by omega
      rw [List.length_eq_zero_iff.mp (hlength.trans hzero)]
      rfl
  | uint32 =>
    simp only [IntegerType.uint32_values]
    exact wide_thresholds_iff .unsigned order wide_unsigned_iff request.count.toNat
  | int32 =>
    simp only [IntegerType.int32_values]
    exact wide_thresholds_iff .signed order wide_signed_iff request.count.toNat

theorem agrees_iff (ty : IntegerType) (order : Endian.ByteOrder)
    (htrigger : request.trigger ≠ .periodic) :
    request.Agrees ty order ↔ request.Indifferent ty := by
  cases h : request.trigger with
  | onChange => exact changes_agree_iff ty order h
  | onThreshold => exact thresholds_agree_iff ty order h
  | periodic => exact absurd h htrigger

end SubscriptionRequest

/-! ### Scans -/

namespace ScanEvent

variable {τ : Type}

/-- What entry `k` of the sources issued for entry `j` of the subscriptions. -/
def issuedFrom (k j : ℕ) (e : ScanEvent τ) : Option Issued := (e.log[k]?.bind (·[j]?)).join

end ScanEvent

namespace Publisher

/-- A run comes to a scan that finds entry `k` of the sources with a baseline for the
subscription `j`, and reads its registers again. -/
structure Compares {τ : Type} (W : World τ) (s s' : Publishing τ)
    (e : ScanEvent τ) (k j : ℕ) (source : DataSource τ) (request : SubscriptionRequest) : Prop where
  reached : ∃ net calls events, runAll (step W) calls ⟨{}, net⟩ = .ok (events, s)
  scanned : scan W () s = .ok (e, s')
  source_at : s.publisher.sources[k]? = some source
  subscription_at : (s.publisher.subscriptions[j]?).map ActiveSubscription.request = some request
  covers : source.Covers request
  has_baseline : source.hasBaseline = true
  baseline_full : (source.baseline request).length = request.count.toNat
  reading_full : (e.reading k request).length = request.count.toNat

/-- Over every pair of successive readings, whether a scan tells the subscription is determined
by the values that the type and the byte order of the request make of the registers. -/
def TellsValues (request : SubscriptionRequest) : Prop :=
  ∀ (ty : IntegerType) (order : Endian.ByteOrder), request.type = ty.code →
    request.byteOrder = order.code →
    ∀ {τ : Type} (W : World τ) (s s' : Publishing τ) (e : ScanEvent τ) (k j : ℕ) (source : DataSource τ),
      Compares W s s' e k j source request →
      (e.issuedFrom k j).isSome =
        request.valuesTrigger (ty.values order (e.reading k request))
          (ty.values order (source.baseline request))

variable {τ : Type} {W : World τ} {s s' : Publishing τ} {e : ScanEvent τ}
  {k j : ℕ} {source : DataSource τ}
  {request : SubscriptionRequest}

theorem shouldNotify_registers {sub : ActiveSubscription}
    (htrigger : sub.request.trigger ≠ .periodic) (current previous : List UInt16) (net : τ) :
    shouldNotify W sub current previous net =
      .ok (sub.request.registersTrigger current previous, net) := by
  unfold shouldNotify SubscriptionRequest.registersTrigger
  cases h : sub.request.trigger with
  | onChange => rfl
  | onThreshold => rfl
  | periodic => exact absurd h htrigger

theorem registers_of_slice {values slice : List UInt16}
    (h : source.slice request values = .ok slice) :
    slice = source.registers request values := by
  have hinside := DataSource.sliceInside_iff.mp (DataSource.slice_returns_iff.mp ⟨slice, h⟩)
  rw [slice_eq_of_le hinside] at h
  exact (Except.ok.inj h).symm

theorem baseline_of_previousSlice {slice : List UInt16}
    (h : source.previousSlice request = .ok slice) :
    slice = source.baseline request := by
  unfold DataSource.previousSlice at h
  unfold DataSource.baseline
  split_ifs at h ⊢
  · exact registers_of_slice h
  · exact (Except.ok.inj h).symm

/-- A turn of the inner loop tells a covered subscription if the test of the registers says so. -/
theorem notifyOne_registers {current : List UInt16} {sub sub' : ActiveSubscription} {net net' : τ}
    {issued : Option Issued} (htrigger : sub.request.trigger ≠ .periodic)
    (hcovers : source.Covers sub.request)
    (h : notifyOne W source current sub net = .ok ((issued, sub'), net')) :
    issued.isSome =
      sub.request.registersTrigger (source.registers sub.request current)
        (source.baseline sub.request) := by
  cases notifyOne_turn h with
  | uncovered huncovered => exact absurd hcovers huncovered
  | quiet _ hslice hprev hnotify =>
    rw [shouldNotify_registers htrigger, registers_of_slice hslice,
      baseline_of_previousSlice hprev] at hnotify
    exact (congrArg Prod.fst (Except.ok.inj hnotify)).symm
  | told _ hslice hprev hnotify hpush =>
    rw [shouldNotify_registers htrigger, registers_of_slice hslice,
      baseline_of_previousSlice hprev] at hnotify
    exact (congrArg Prod.fst (Except.ok.inj hnotify)).symm

/-- A scan tells a subscription that a source covers by the test of its registers. -/
theorem scan_issuedFrom (h : scan W () s = .ok (e, s'))
    (hsource : s.publisher.sources[k]? = some source)
    (hsub : (s.publisher.subscriptions[j]?).map ActiveSubscription.request = some request)
    (hcovers : source.Covers request) (htrigger : request.trigger ≠ .periodic) :
    (e.issuedFrom k j).isSome = request.registersTrigger (e.reading k request)
      (source.baseline request) := by
  obtain ⟨rfl, -, outs, hlog, hsources, hall⟩ := scan_rows h
  obtain ⟨⟨row, source'⟩, hout, subs, net, subs', net', hsubs, hone⟩ := forall₂_at hall hsource
  have hrequest : (subs.map ActiveSubscription.request)[j]? = some request := by
    rw [hsubs, List.getElem?_map, hsub]
  obtain ⟨issued, sub, sub', current, net₁, net₂, net₃, net₄, hissued, rfl, -, rfl, hnotify⟩ :=
    row_at hone hrequest
  have hread : e.reading k sub.request = source.registers sub.request current := by
    rw [ScanEvent.reading, hsources, List.getElem?_map, hout]
    rfl
  rw [ScanEvent.issuedFrom, hlog, List.getElem?_map, hout,
    hread, ← notifyOne_registers htrigger hcovers hnotify]
  change (row[j]?.join).isSome = _
  rw [hissued, Option.join_some]

theorem Compares.issued_isSome (h : Compares W s s' e k j source request)
    (htrigger : request.trigger ≠ .periodic) :
    (e.issuedFrom k j).isSome = request.registersTrigger (e.reading k request)
      (source.baseline request) :=
  scan_issuedFrom h.scanned h.source_at h.subscription_at h.covers htrigger

/-- A world that holds the readings to come, and takes every frame. -/
def recorded : World (List (List UInt16)) where
  send _ readings := .ok (.ok, readings)
  receive _ readings := .ok (.fail .timeoutExpired, readings)
  isConnected _ := true
  now readings := (⟨0⟩, readings)

theorem notifyOne_returns {source : DataSource (List (List UInt16))} (sub : ActiveSubscription)
    {current slice prevSlice : List UInt16} (readings : List (List UInt16))
    (htrigger : sub.request.trigger ≠ .periodic) (hcovers : source.Covers sub.request)
    (hslice : source.slice sub.request current = .ok slice)
    (hprev : source.previousSlice sub.request = .ok prevSlice) :
    ∃ out, notifyOne recorded source current sub readings = .ok (out, readings) := by
  rw [notifyOne, if_neg (not_not.mpr hcovers), hslice, hprev]
  change ∃ out, (shouldNotify recorded sub slice prevSlice readings >>= _) =
    Except.ok (out, readings)
  rw [shouldNotify_registers htrigger]
  cases sub.request.registersTrigger slice prevSlice with
  | false => exact ⟨_, rfl⟩
  | true => exact ⟨_, rfl⟩

/-- The registers of the subscription as a source, which has been read last as `previous`. -/
def recordedSource (request : SubscriptionRequest) (previous : List UInt16) :
    DataSource (List (List UInt16)) where
  start := request.startAddress
  count := if request.count = 0 then 1 else request.count
  reader := fun readings => .ok (readings.headD [], readings.tail)
  lastValues := previous
  hasBaseline := true

section Recorded

variable {current previous : List UInt16}

theorem recordedSource_covers : (recordedSource request previous).Covers request := by
  refine ⟨UInt16.le_refl _, ?_⟩
  change request.startAddress.toNat < request.startAddress.toNat +
    (if request.count = 0 then 1 else request.count).toNat
  split_ifs with hzero
  · exact Nat.lt_succ_self _
  · have hpos : request.count.toNat ≠ 0 := fun h => hzero (UInt16.toNat_inj.mp h)
    omega

theorem recordedSource_registers (previous : List UInt16) {values : List UInt16}
    (h : values.length = request.count.toNat) :
    (recordedSource request previous).registers request values = values := by
  change (values.drop (request.startAddress.toNat - request.startAddress.toNat)).take
    request.count.toNat = values
  rw [Nat.sub_self, List.drop_zero, ← h, List.take_length]

theorem recordedSource_slice (previous : List UInt16) {values : List UInt16}
    (h : values.length = request.count.toNat) :
    (recordedSource request previous).slice request values = .ok values := by
  rw [slice_eq_of_le, recordedSource_registers previous h]
  change request.startAddress.toNat - request.startAddress.toNat ≤ values.length
  omega

/-- The state after a first scan and the acceptance of the subscription. -/
def recordedState (request : SubscriptionRequest) (current previous : List UInt16) :
    Publishing (List (List UInt16)) :=
  ⟨⟨[recordedSource request previous], [⟨1, request, ⟨0⟩⟩], 2⟩, [current]⟩

theorem recordedState_reached : ∃ net calls events,
    runAll (step recorded) calls ⟨{}, net⟩ = .ok (events, recordedState request current previous) :=
  ⟨[previous, current],
    [.register request.startAddress (if request.count = 0 then 1 else request.count)
    fun readings => .ok (readings.headD [], readings.tail), .scan, .accept request], _, rfl⟩

theorem recordedState_scan {out : Option Issued × ActiveSubscription}
    (hout : notifyOne recorded (recordedSource request previous) current ⟨1, request, ⟨0⟩⟩ [] =
      .ok (out, [])) :
    scan recorded () (recordedState request current previous) =
      .ok (⟨[[out.1]], recordedState request current previous,
        ⟨⟨[recordedSource request current], [out.2], 2⟩, []⟩⟩,
        ⟨⟨[recordedSource request current], [out.2], 2⟩, []⟩) := by
  have hturns :
    runAll (notifyOne recorded (recordedSource request previous) current) [⟨1, request, ⟨0⟩⟩] [] =
      .ok ([out], []) :=
    runAll_cons.mpr ⟨out, [], [], hout, rfl, rfl⟩
  have hsource :
    scanSource recorded (recordedSource request previous) ([⟨1, request, ⟨0⟩⟩], [current]) =
      .ok (([out.1], recordedSource request current), [out.2], []) := by
    change (runAll (notifyOne recorded (recordedSource request previous) current)
      [⟨1, request, ⟨0⟩⟩] [] >>= _) = _
    rw [hturns]
    rfl
  have hsources : runAll (scanSource recorded) [recordedSource request previous]
    ([⟨1, request, ⟨0⟩⟩], [current]) =
      .ok ([([out.1], recordedSource request current)], [out.2], []) :=
    runAll_cons.mpr ⟨_, _, [], hsource, rfl, rfl⟩
  change ((runAll (scanSource recorded) [recordedSource request previous]
    ([⟨1, request, ⟨0⟩⟩], [current]) >>= _) >>=
    _) = _
  rw [hsources]
  rfl

theorem exists_compares (request : SubscriptionRequest) (current previous : List UInt16)
    (htrigger : request.trigger ≠ .periodic) (hcurrent : current.length = request.count.toNat)
    (hprevious : previous.length = request.count.toNat) :
    ∃ s s' e, Compares recorded s s' e 0 0 (recordedSource request previous) request ∧
      e.reading 0 request = current ∧
      (recordedSource request previous).baseline request = previous := by
  obtain ⟨out, hout⟩ := notifyOne_returns ⟨1, request, ⟨0⟩⟩ [] htrigger recordedSource_covers
    (recordedSource_slice previous hcurrent) (recordedSource_slice previous hprevious)
  have hreading : (recordedSource request current).registers request current = current :=
    recordedSource_registers current hcurrent
  have hbaseline : (recordedSource request previous).baseline request = previous :=
    recordedSource_registers previous hprevious
  exact ⟨_, _, _, {
    reached := recordedState_reached
    scanned := recordedState_scan hout
    source_at := rfl
    subscription_at := rfl
    covers := recordedSource_covers
    has_baseline := rfl
    baseline_full := (congrArg List.length hbaseline).trans hprevious
    reading_full := (congrArg List.length hreading).trans hcurrent }, hreading, hbaseline⟩

end Recorded

/-- A scan tells a subscription by its values exactly if the trigger does not care. -/
theorem tells_values_iff (ty : IntegerType) (order : Endian.ByteOrder)
    (htype : request.type = ty.code) (horder : request.byteOrder = order.code)
    (htrigger : request.trigger ≠ .periodic) :
    TellsValues request ↔ request.Indifferent ty := by
  rw [← SubscriptionRequest.agrees_iff ty order htrigger]
  constructor
  · intro htells current previous hcurrent hprevious
    obtain ⟨s, s', e, hcompares, hreading, hbaseline⟩ :=
      exists_compares request current previous htrigger hcurrent hprevious
    have hvalues := htells ty order htype horder recorded s s' e 0 0 _ hcompares
    rw [hcompares.issued_isSome htrigger, hreading, hbaseline] at hvalues
    exact hvalues
  · intro hagrees ty' order' htype' horder' τ W s s' e k j source hcompares
    have hty : ty' = ty := IntegerType.code_inj (htype'.symm.trans htype)
    have horder'' : order' = order := Endian.ByteOrder.code_inj (horder'.symm.trans horder)
    rw [hty, horder'', hcompares.issued_isSome htrigger]
    exact hagrees _ _ hcompares.reading_full hcompares.baseline_full

/-- A 32-bit value in swapped words, of which every change is told. -/
theorem tells_values_every_change :
    TellsValues {
      count := 2, type := ⟨3⟩, byteOrder := ⟨3⟩, trigger := .onChange
      deadBand := .finite (1 / 2) } :=
  (tells_values_iff .int32 .cdab rfl rfl (by decide)).mpr
    ⟨by decide, .inr ⟨by decide, by decide +kernel⟩⟩

/-- From -1 to 0 is a change of 1, within the dead band of 5, and the registers are 65535
apart. -/
theorem sign_change_told :
    ¬∀ request : SubscriptionRequest, request.trigger ≠ .periodic → TellsValues request := by
  intro hall
  obtain ⟨s, s', e, hcompares, hreading, hbaseline⟩ :=
    exists_compares { type := ⟨1⟩, deadBand := .finite 5 } [0] [0xFFFF] (by decide) rfl rfl
  have hvalues := hall { type := ⟨1⟩, deadBand := .finite 5 } (by decide)
    .int16 .abcd rfl rfl recorded s s' e 0 0 _
    hcompares
  rw [hcompares.issued_isSome (by decide), hreading, hbaseline] at hvalues
  exact absurd hvalues (by decide +kernel)

end Publisher

end ModbusPp

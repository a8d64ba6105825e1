import ModbusPp.PubSub.DeadBand
import ModbusPp.PubSub.PublisherRuns

/-! Which changes reach an OnChange subscription. A scan looks at a subscription through
the sources that contain its first register, so a change of a watched register is told if
one of these sources sees some watched register change, or has no baseline yet. -/

namespace ModbusPp

open Foundation

variable {τ : Type}

/-- The value of register `a` as it was last read from entry `k` of the sources. -/
def Publishing.valueAt (s : Publishing τ) (k a : ℕ) : Option UInt16 :=
  (s.publisher.sources[k]?).bind fun source =>
    if source.start.toNat ≤ a then source.lastValues[a - source.start.toNat]? else none

/-- Register `a` of entry `k` of the sources is watched, and its value has changed by more
than the dead band between the scans. -/
def Moved (request : SubscriptionRequest) (first second : PublisherEvent τ) (k a : ℕ) : Prop :=
  request.startAddress.toNat ≤ a ∧ a < request.startAddress.toNat + request.count.toNat ∧
    ∃ x y, first.after.valueAt k a = some x ∧ second.after.valueAt k a = some y ∧
      request.deadBand.below (registerDistance y x) = true

/-- What a call issued for entry `j` of the subscriptions. -/
def PublisherEvent.issuedFor (j : ℕ) (e : PublisherEvent τ) : List Issued :=
  match e.outcome with
  | .scanned log => log.filterMap fun row => (row[j]?).join
  | _ => []

theorem PublisherEvent.issuedFor_scanned {e : PublisherEvent τ} {log : List (List (Option Issued))}
    (h : e.outcome = .scanned log) (j : ℕ) :
    e.issuedFor j = ScanEvent.issued j ⟨log, e.before, e.after⟩ := by
  rw [issuedFor, h]
  rfl

def PublisherCall.isScan : PublisherCall τ → Bool
  | .scan => true
  | _ => false

/-- The readers return all the registers of their sources. -/
def Publisher.Full (p : Publisher τ) : Prop :=
  ∀ source ∈ p.sources, ∀ net values net', source.reader net = .ok (values, net') →
    values.length = source.count.toNat

/-- Two scans, with other calls between them. -/
structure Publisher.InARow (W : World τ) (first second : PublisherEvent τ) : Prop where
  first_scan : perform W .scan first.before = .ok (first.outcome, first.after)
  between : ∃ calls events, (∀ call ∈ calls, call.isScan = false) ∧
    runAll (step W) calls first.after = .ok (events, second.before)
  second_scan : perform W .scan second.before = .ok (second.outcome, second.after)

namespace Publisher

variable {W : World τ} {source : DataSource τ} {request : SubscriptionRequest}
  {sub : ActiveSubscription} {k j : ℕ}
  {s s' : Publishing τ} {e first second : PublisherEvent τ} {call : PublisherCall τ}

/-! ### The test for changes -/

theorem registers_at (hcovers : source.Covers request) (values : List UInt16)
    {i : ℕ} (hi : i < request.count.toNat) :
    (source.registers request values)[i]? =
      values[request.startAddress.toNat + i - source.start.toNat]? := by
  have hstart : source.start.toNat ≤ request.startAddress.toNat :=
    UInt16.le_iff_toNat_le.mp hcovers.1
  rw [DataSource.registers, List.getElem?_take_of_lt hi, List.getElem?_drop,
    Nat.sub_add_comm hstart]

theorem changed_registers_iff (hcovers : source.Covers request) {current previous : List UInt16}
    (hfull : previous.length = source.count.toNat) (hcount : request.count ≠ 0) :
    changed request.deadBand (source.registers request current)
      (source.registers request previous) = true ↔
      ∃ a, request.startAddress.toNat ≤ a ∧ a < request.startAddress.toNat + request.count.toNat ∧
        ∃ x y, previous[a - source.start.toNat]? = some x ∧
          current[a - source.start.toNat]? = some y ∧
          request.deadBand.below (registerDistance y x) = true := by
  have hpos : 0 < request.count.toNat := by
    rw [Nat.pos_iff_ne_zero, ne_eq, ← UInt16.toNat_zero, UInt16.toNat_inj]
    exact hcount
  have hnonempty : (source.registers request previous).isEmpty = false := by
    have hstart : source.start.toNat ≤ request.startAddress.toNat :=
      UInt16.le_iff_toNat_le.mp hcovers.1
    have hcovered := hcovers.2
    rw [List.isEmpty_eq_false_iff, ← List.length_pos_iff, DataSource.registers, List.length_take,
      List.length_drop]
    omega
  have hzip : ∀ i y x,
    ((source.registers request current).zip (source.registers request previous))[i]? = some (y, x) ↔
      i < request.count.toNat ∧
      current[request.startAddress.toNat + i - source.start.toNat]? = some y ∧
        previous[request.startAddress.toNat + i - source.start.toNat]? = some x := by
    intro i y x
    rw [List.getElem?_zip_eq_some]
    by_cases hi : i < request.count.toNat
    · rw [registers_at hcovers current hi, registers_at hcovers previous hi]
      exact ⟨fun h => ⟨hi, h⟩, fun h => h.2⟩
    · refine iff_of_false (fun h => ?_) fun h => hi h.1
      rw [DataSource.registers, List.getElem?_take, if_neg hi] at h
      cases h.1
  rw [changed, hnonempty, Bool.false_or, List.any_eq_true]
  constructor
  · rintro ⟨⟨y, x⟩, hmem, hbelow⟩
    obtain ⟨i, hi⟩ := List.mem_iff_getElem?.mp hmem
    obtain ⟨hlt, hy, hx⟩ := (hzip i y x).mp hi
    exact ⟨_, Nat.le_add_right _ i, Nat.add_lt_add_left hlt _, x, y, hx, hy, hbelow⟩
  · rintro ⟨a, hle, hlt, x, y, hx, hy, hbelow⟩
    obtain ⟨i, rfl⟩ := Nat.exists_eq_add_of_le hle
    exact ⟨(y, x), List.mem_of_getElem? ((hzip i y x).mpr ⟨Nat.lt_of_add_lt_add_left hlt, hy, hx⟩),
      hbelow⟩

/-! ### The scans and the calls between them -/

theorem perform_scan {outcome : PublisherOutcome} (h : perform W .scan s = .ok (outcome, s')) :
    ∃ log, outcome = .scanned log ∧ scan W () s = .ok (⟨log, s, s'⟩, s') := by
  obtain ⟨⟨log, t⟩, hscan, h⟩ := bind_eq_ok.mp h
  cases h
  refine ⟨log, rfl, ?_⟩
  rw [scan, hscan]
  rfl

/-- After a scan every source has a baseline, as its reader returned it. -/
theorem scan_baselines {e : ScanEvent τ} (h : scan W () s = .ok (e, s'))
    (hsource' : s'.publisher.sources[k]? = some source) :
    source.hasBaseline = true ∧ ∃ net net', source.reader net = .ok (source.lastValues, net') := by
  obtain ⟨-, -, outs, -, hsources, hall⟩ := scan_rows h
  rw [hsources, List.getElem?_map, Option.map_eq_some_iff] at hsource'
  obtain ⟨⟨row, source₁⟩, hout, rfl⟩ := hsource'
  obtain ⟨source₀, -, subs, net, subs', net', -, hone⟩ := forall₂_at hall.flip hout
  obtain ⟨-, current, net₁, hread, rfl, -⟩ := scanSource_facts hone
  exact ⟨rfl, net, net₁, hread⟩

theorem scan_reads {e : ScanEvent τ} (h : scan W () s = .ok (e, s'))
    (hsource : s.publisher.sources[k]? = some source) :
    ∃ current, s'.publisher.sources[k]? =
      some { source with lastValues := current, hasBaseline := true } := by
  obtain ⟨-, -, outs, -, hsources, hall⟩ := scan_rows h
  obtain ⟨⟨row, source'⟩, hout, subs, net, subs', net', -, hone⟩ := forall₂_at hall hsource
  obtain ⟨-, current, net₁, -, rfl, -⟩ := scanSource_facts hone
  exact ⟨current, by rw [hsources, List.getElem?_map, hout, Option.map_some]⟩

theorem perform_sources {outcome : PublisherOutcome} (hother : call.isScan = false)
    (h : perform W call s = .ok (outcome, s')) :
    ∃ fresh, s'.publisher.sources = s.publisher.sources ++ fresh ∧
      ∀ source ∈ fresh, source.hasBaseline = false := by
  cases call with
  | register start count reader =>
    cases h
    exact ⟨_, rfl, List.forall_mem_singleton.mpr rfl⟩
  | accept request =>
    obtain ⟨-, -, -, hsources, -⟩ := perform_accept h
    exact ⟨[], by rw [hsources, List.append_nil], List.forall_mem_nil _⟩
  | remove id =>
    obtain ⟨result, -, -, -, -, hsources, -⟩ := perform_remove h
    exact ⟨[], by rw [hsources, List.append_nil], List.forall_mem_nil _⟩
  | scan => cases hother

theorem run_sources {calls : List (PublisherCall τ)} {events : List (PublisherEvent τ)}
    (hother : ∀ call ∈ calls, call.isScan = false)
    (hrun : runAll (step W) calls s = .ok (events, s')) :
    ∃ fresh, s'.publisher.sources = s.publisher.sources ++ fresh ∧
      ∀ source ∈ fresh, source.hasBaseline = false := by
  induction calls generalizing s events with
  | nil =>
    cases hrun
    exact ⟨[], (List.append_nil _).symm, List.forall_mem_nil _⟩
  | cons call calls ih =>
    obtain ⟨e, s₁, events', hfirst, hothers, rfl⟩ := runAll_cons.mp hrun
    obtain ⟨-, -, -, hperform⟩ := step_event hfirst
    rw [List.forall_mem_cons] at hother
    obtain ⟨fresh, hsources, hnew⟩ := perform_sources hother.1 hperform
    obtain ⟨fresh', hsources', hnew'⟩ := ih hother.2 hothers
    exact ⟨fresh ++ fresh', by rw [hsources', hsources, List.append_assoc],
      List.forall_mem_append.mpr ⟨hnew, hnew'⟩⟩

/-- A row has a notification for an OnChange subscription exactly if its source covers the
subscription and finds its registers changed. -/
theorem row_told_iff {source' : DataSource τ} {subs subs' : List ActiveSubscription} {net net' : τ}
    {row : List (Option Issued)}
    (h : scanSource W source (subs, net) = .ok ((row, source'), subs', net'))
    (hrequest : (subs.map ActiveSubscription.request)[j]? = some request)
    (htrigger : request.trigger = .onChange)
    (hbaseline : source.hasBaseline = true → source.lastValues.length = source.count.toNat)
    (hfull : ∀ net values net', source.reader net = .ok (values, net') →
      values.length = source.count.toNat) :
    source' = { source with lastValues := source'.lastValues, hasBaseline := true } ∧
      ((row[j]?).join ≠ none ↔ source.Covers request ∧
        changed request.deadBand (source.registers request source'.lastValues)
          (source.baseline request) = true) := by
  by_cases hcovers : source.Covers request
  · obtain ⟨issued, sub, sub', current, net₁, net₂, net₃, net₄, hissued, rfl, hread, rfl,
      hnotify⟩ := row_at h hrequest
    have htold := notifyOne_onChange hnotify hcovers htrigger (slice_eq hcovers (hfull _ _ _ hread))
      (previousSlice_eq hcovers hbaseline)
    refine ⟨rfl, ?_⟩
    rw [hissued, Option.join_some, and_iff_right hcovers]
    cases issued with
    | none =>
      refine iff_of_false (fun hne => hne rfl) fun hchanged => ?_
      rw [if_pos hchanged] at htold
      cases htold
    | some i =>
      refine iff_of_true (fun hnone => by cases hnone) (by_contra fun hchanged => ?_)
      rw [if_neg hchanged] at htold
      cases htold
  · obtain ⟨-, current, net₁, -, rfl, -⟩ := scanSource_facts h
    refine ⟨rfl, iff_of_false (fun hne => hne ?_) fun h => hcovers h.1⟩
    exact row_uncovered h hrequest hcovers

theorem scan_told_iff {e : ScanEvent τ} (hfull : s.publisher.Full)
    (hbaselines : ∀ source ∈ s.publisher.sources, source.hasBaseline = true →
      source.lastValues.length = source.count.toNat)
    (hsub : s.publisher.subscriptions[j]? = some sub) (htrigger : sub.request.trigger = .onChange)
    (h : scan W () s = .ok (e, s')) :
    e.issued j ≠ [] ↔ ∃ (k : ℕ) (source : DataSource τ) (current : List UInt16),
      s.publisher.sources[k]? = some source ∧
      s'.publisher.sources[k]? = some { source with lastValues := current, hasBaseline := true } ∧
      source.Covers sub.request ∧
      changed sub.request.deadBand (source.registers sub.request current)
        (source.baseline sub.request) = true := by
  obtain ⟨-, -, outs, hlog, hsources, hall⟩ := scan_rows h
  have hrow : ∀ (k : ℕ) (source : DataSource τ) (row : List (Option Issued)) (source' : DataSource τ),
      s.publisher.sources[k]? = some source → outs[k]? = some (row, source') →
      source' = { source with lastValues := source'.lastValues, hasBaseline := true } ∧
        ((row[j]?).join ≠ none ↔ source.Covers sub.request ∧ changed sub.request.deadBand
          (source.registers sub.request source'.lastValues)
            (source.baseline sub.request) = true) := by
    intro k source row source' hsource hout
    obtain ⟨out, hout', subs, net, subs', net', hsubs, hone⟩ := forall₂_at hall hsource
    cases hout.symm.trans hout'
    have hmem := List.mem_of_getElem? hsource
    refine row_told_iff hone ?_ htrigger (hbaselines source hmem) (hfull source hmem)
    rw [hsubs, List.getElem?_map, hsub, Option.map_some]
  rw [ScanEvent.issued, ne_eq, List.filterMap_eq_nil_iff]
  constructor
  · intro hsome
    simp only [not_forall, exists_prop] at hsome
    obtain ⟨row, hmem, hne⟩ := hsome
    rw [hlog] at hmem
    obtain ⟨⟨row, source'⟩, hout, rfl⟩ := List.mem_map.mp hmem
    obtain ⟨k, hk⟩ := List.mem_iff_getElem?.mp hout
    obtain ⟨source, hsource, -⟩ := forall₂_at hall.flip hk
    obtain ⟨hread, hiff⟩ := hrow k source row source' hsource hk
    obtain ⟨hcovers, hchanged⟩ := hiff.mp hne
    refine ⟨k, source, source'.lastValues, hsource, ?_, hcovers, hchanged⟩
    rw [hsources, List.getElem?_map, hk, Option.map_some, ← hread]
  · rintro ⟨k, source, current, hsource, hread, hcovers, hchanged⟩ hnone
    rw [hsources, List.getElem?_map, Option.map_eq_some_iff] at hread
    obtain ⟨⟨row, source'⟩, hk, hsource'⟩ := hread
    have hcurrent : current = source'.lastValues := (congrArg DataSource.lastValues hsource').symm
    rw [hcurrent] at hchanged
    refine ((hrow k source row source' hsource hk).2.mpr ⟨hcovers, hchanged⟩) (hnone row ?_)
    rw [hlog]
    exact List.mem_map_of_mem (List.mem_of_getElem? hk)

/-! ### Two scans in a row -/

/-- What the second of two scans finds: the sources of the first with all the registers
that it read, and new ones without a baseline. -/
theorem InARow.baselines (h : InARow W first second) (hfull : second.before.publisher.Full) (hk :
    second.before.publisher.sources[k]? = some source) :
    (source.hasBaseline = true → source.lastValues.length = source.count.toNat) ∧
      first.after.publisher.sources[k]? = if source.hasBaseline then some source else none := by
  obtain ⟨calls, events, hother, hrun⟩ := h.between
  obtain ⟨fresh, hsources, hnew⟩ := run_sources hother hrun
  obtain ⟨log, -, hscan⟩ := perform_scan h.first_scan
  have hmem := List.mem_of_getElem? hk
  rw [hsources] at hk
  by_cases hlt : k < first.after.publisher.sources.length
  · rw [List.getElem?_append_left hlt] at hk
    obtain ⟨hbase, net, net', hread⟩ := scan_baselines hscan hk
    rw [if_pos hbase, hk]
    exact ⟨fun _ => hfull source hmem net _ net' hread, rfl⟩
  · have hfresh : source.hasBaseline = false := by
      rw [List.getElem?_append_right (not_lt.mp hlt)] at hk
      exact hnew source (List.mem_of_getElem? hk)
    rw [hfresh]
    refine ⟨fun hbase => ?_, List.getElem?_eq_none (not_lt.mp hlt)⟩
    cases hbase

theorem valueAt_eq {values : List UInt16} {a : ℕ} (hk : s.publisher.sources[k]? = some source)
    (hvalues : source.lastValues = values) (hstart : source.start.toNat ≤ a) :
    s.valueAt k a = values[a - source.start.toNat]? := by
  rw [Publishing.valueAt, hk, Option.bind_some, if_pos hstart, hvalues]

theorem InARow.changed_iff (h : InARow W first second)
    (hfull : second.before.publisher.Full) {current : List UInt16}
    (hk : second.before.publisher.sources[k]? = some source)
    (hread : second.after.publisher.sources[k]? =
      some { source with lastValues := current, hasBaseline := true })
    (hcovers : source.Covers request) (hcount : request.count ≠ 0) :
    changed request.deadBand (source.registers request current) (source.baseline request) = true ↔
      source.hasBaseline = false ∨ ∃ a, Moved request first second k a := by
  obtain ⟨hlength, hfirst⟩ := h.baselines hfull hk
  have hstart : source.start.toNat ≤ request.startAddress.toNat :=
    UInt16.le_iff_toNat_le.mp hcovers.1
  cases hbase : source.hasBaseline with
  | false =>
    rw [DataSource.baseline, hbase]
    exact iff_of_true rfl (.inl rfl)
  | true =>
    rw [if_pos hbase] at hfirst
    have hnot : ¬true = false := by decide
    rw [DataSource.baseline, if_pos hbase, changed_registers_iff hcovers (hlength hbase) hcount,
      or_iff_right hnot]
    refine exists_congr fun a => and_congr_right fun hle => ?_
    rw [valueAt_eq hfirst rfl (hstart.trans hle), valueAt_eq hread rfl (hstart.trans hle)]

/-- If a watched register has moved, the subscription is told exactly if a source that
contains its first register has no baseline or sees a watched register move. -/
theorem InARow.told_iff (h : InARow W first second) (hfull : second.before.publisher.Full)
    (hsub : second.before.publisher.subscriptions[j]? = some sub)
    (htrigger : sub.request.trigger = .onChange) (hcount : sub.request.count ≠ 0) :
    second.issuedFor j ≠ [] ↔ ∃ k source, second.before.publisher.sources[k]? = some source ∧
    source.Covers sub.request ∧
      (source.hasBaseline = false ∨ ∃ a, Moved sub.request first second k a) := by
  obtain ⟨log, houtcome, hscan⟩ := perform_scan h.second_scan
  have hbaselines : ∀ source ∈ second.before.publisher.sources, source.hasBaseline = true →
      source.lastValues.length = source.count.toNat := by
    intro source hmem
    obtain ⟨k, hk⟩ := List.mem_iff_getElem?.mp hmem
    exact (h.baselines hfull hk).1
  rw [PublisherEvent.issuedFor_scanned houtcome, scan_told_iff hfull hbaselines hsub htrigger hscan]
  constructor
  · rintro ⟨k, source, current, hk, hread, hcovers, hchanged⟩
    exact ⟨k, source, hk, hcovers, (h.changed_iff hfull hk hread hcovers hcount).mp hchanged⟩
  · rintro ⟨k, source, hk, hcovers, hmoved⟩
    obtain ⟨current, hread⟩ := scan_reads hscan hk
    exact ⟨k, source, current, hk, hread, hcovers,
      (h.changed_iff hfull hk hread hcovers hcount).mpr hmoved⟩

/-- No watched change is missed if and only if some watched change, whenever there is one,
is in a source that contains the first register of the subscription, or such a source has
no baseline. -/
theorem watched_told_iff (h : InARow W first second) (hfull : second.before.publisher.Full)
    (hsub : second.before.publisher.subscriptions[j]? = some sub)
    (htrigger : sub.request.trigger = .onChange) :
    (∀ k a, Moved sub.request first second k a → second.issuedFor j ≠ []) ↔
      ∀ k a, Moved sub.request first second k a → ∃ k' source,
        second.before.publisher.sources[k']? = some source ∧
        source.Covers sub.request ∧
        (source.hasBaseline = false ∨ ∃ a', Moved sub.request first second k' a') := by
  refine forall₂_congr fun k a => imp_congr_right fun hmoved => h.told_iff hfull hsub htrigger ?_
  intro hzero
  obtain ⟨hle, hlt, -⟩ := hmoved
  rw [hzero] at hlt
  exact absurd hlt (not_lt.mpr hle)

/-- A reader of one register. -/
def readOne (values : List UInt16) : Checked (List UInt16 × List UInt16) :=
  .ok ([values.headD 0], values.tail)

theorem readOne_full {p : Publisher (List UInt16)}
    (h : ∀ source ∈ p.sources, source.reader = readOne ∧ source.count.toNat = 1) : p.Full := by
  intro source hmem net values net' hread
  rw [(h source hmem).1] at hread
  cases hread
  exact (h source hmem).2.symm

theorem watched_told_first : ∃ earlier first second last,
    runAll (step scripted) [.register 0 1 readOne, .accept {}, .scan, .scan] ⟨{}, [5, 7]⟩ =
      .ok (earlier ++ [first, second], last) ∧ Moved {} first second 0 0 ∧
      second.issuedFor 0 ≠ [] := by
  obtain ⟨earlier, first, second, last, hrun, hrow, hfull, hsub, ⟨source, hk, hcovers⟩, hmoved⟩ :
      ∃ earlier first second last,
        runAll (step scripted) [.register 0 1 readOne, .accept {}, .scan, .scan] ⟨{}, [5, 7]⟩ =
          .ok (earlier ++ [first, second], last) ∧ InARow scripted first second ∧
          second.before.publisher.Full ∧
        second.before.publisher.subscriptions[0]? = some ⟨1, {}, ⟨0⟩⟩ ∧
        (∃ source, second.before.publisher.sources[0]? = some source ∧ source.Covers {}) ∧
        Moved {} first second 0 0 := by
    refine ⟨[_, _], _, _, _, rfl, ⟨rfl, ⟨[], [], List.forall_mem_nil _, rfl⟩, rfl⟩,
      readOne_full ?_, rfl,
      ⟨_, rfl, by decide⟩, by decide, by decide, 5, 7, rfl, rfl, rfl⟩
    exact List.forall_mem_singleton.mpr ⟨rfl, rfl⟩
  exact ⟨earlier, first, second, last, hrun, hmoved,
    (watched_told_iff hrow hfull hsub rfl).mpr
      (fun _ _ _ => ⟨0, source, hk, hcovers, .inr ⟨0, hmoved⟩⟩) 0 0 hmoved⟩

/-- A subscription to two registers of neighbouring sources: the second one changes, and
nothing is told. -/
theorem second_source_untold : ∃ earlier first second last,
    runAll (step scripted)
      [.register 0 1 readOne, .register 1 1 readOne, .accept { count := 2 }, .scan, .scan]
      ⟨{}, [5, 7, 5, 9]⟩ = .ok (earlier ++ [first, second], last) ∧
    InARow scripted first second ∧ second.before.publisher.Full ∧
    first.before.publisher.subscriptions.map ActiveSubscription.id = [1] ∧
    (second.before.publisher.subscriptions[0]?).map ActiveSubscription.request =
      some { count := 2 } ∧
    Moved { count := 2 } first second 1 1 ∧ second.issuedFor 0 = [] := by
  refine ⟨[_, _, _], _, _, _, rfl, ⟨rfl, ⟨[], [], List.forall_mem_nil _, rfl⟩, rfl⟩,
    readOne_full ?_, rfl, rfl,
    ⟨by decide, by decide, 7, 9, rfl, rfl, rfl⟩, rfl⟩
  exact List.forall_mem_cons.mpr ⟨⟨rfl, rfl⟩, List.forall_mem_singleton.mpr ⟨rfl, rfl⟩⟩

end Publisher

end ModbusPp

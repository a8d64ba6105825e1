import ModbusPp.Foundation.ChangeDetector
import ModbusPp.PubSub.Scan

/-! Dead bands. An OnChange subscription is compared with the previous scan and not
with what was last notified, so readings that creep away in steps within the dead
band are never notified. For a subscription inside one source the publisher is the
detector of `ChangeDetector`, and tracks the readings exactly if they are steady. -/

namespace ModbusPp

open Foundation

variable {τ : Type}

/-- Each register is at most the dead band away from the one it is compared with. -/
def Within (deadBand : Double) (current told : List UInt16) : Prop :=
  List.Forall₂ (fun c t => deadBand.atLeast (registerDistance c t) = true) current told

/-- Entry `k` of the sources has the registers of entry `j` of the subscriptions, its
reader always returns all its registers, and no other source has the subscription. -/
structure Publisher.Watches (p : Publisher τ) (k j : ℕ) (source : DataSource τ)
    (request : SubscriptionRequest) : Prop where
  source_at : p.sources[k]? = some source
  subscription_at : (p.subscriptions[j]?).map ActiveSubscription.request = some request
  covers : source.Covers request
  inside : request.startAddress.toNat + request.count.toNat ≤ source.start.toNat +
    source.count.toNat
  full : ∀ net values net', source.reader net = .ok (values, net') →
    values.length = source.count.toNat
  baseline_full : source.hasBaseline = true → source.lastValues.length = source.count.toNat
  alone : ∀ k' source', k' ≠ k → p.sources[k']? = some source' → ¬source'.Covers request

namespace ScanEvent

/-- The subscribed registers as the scan has read them from entry `k` of the sources. -/
def reading (k : ℕ) (request : SubscriptionRequest) (e : ScanEvent τ) : List UInt16 :=
  match e.after.publisher.sources[k]? with
  | some source => source.registers request source.lastValues
  | none => []

/-- The scan as a sampling step: what it read for the subscription, and what it told,
as far as `sent` accepts the notifications for sent. -/
def sample (k j : ℕ) (request : SubscriptionRequest) (sent : Issued → Bool)
    (e : ScanEvent τ) : Sample (List UInt16) where
  reading := e.reading k request
  reports := ((e.issued j).filter sent).map (·.notification.currentValues)

end ScanEvent

namespace Publisher

variable {W : World τ} {source source' : DataSource τ} {request : SubscriptionRequest}
  {subs subs' : List ActiveSubscription} {net net' : τ} {row : List (Option Issued)}
    {k j : ℕ} {s s' : Publishing τ}
  {e : ScanEvent τ}

theorem row_watched (hwatch : s.publisher.Watches k j source request)
    (htrigger : request.trigger = .onChange)
    (h : scanSource W source (subs, net) = .ok ((row, source'), subs', net'))
    (hrequest : (subs.map ActiveSubscription.request)[j]? = some request) :
    ∃ current, source' = { source with lastValues := current, hasBaseline := true } ∧
      current.length = source.count.toNat ∧
      (row[j]?).join.toList.map (·.notification.currentValues) =
        if changed request.deadBand (source.registers request current) (source.baseline request)
        then [source.registers request current] else [] := by
  obtain ⟨issued, sub, sub', current, net₁, net₂, net₃, net₄, hissued, rfl, hread, hsource,
    hnotify⟩ := row_at h hrequest
  have hfull := hwatch.full _ _ _ hread
  have hprev := previousSlice_eq hwatch.covers hwatch.baseline_full
  refine ⟨current, hsource, hfull, ?_⟩
  rw [hissued, Option.join_some]
  exact notifyOne_onChange hnotify hwatch.covers htrigger (slice_eq hwatch.covers hfull) hprev

/-- One scan: the subscription stays where it is, its registers are read, and they are
told exactly if they have changed since the baseline. -/
theorem scan_watched (hwatch : s.publisher.Watches k j source request)
    (htrigger : request.trigger = .onChange) (h : scan W () s = .ok (e, s')) :
    e.after = s' ∧ ∃ current,
      s'.publisher.Watches k j { source with lastValues := current, hasBaseline := true } request ∧
      e.reading k request = source.registers request current ∧
      (e.issued j).map (·.notification.currentValues) =
        if changed request.deadBand (source.registers request current) (source.baseline request)
        then [source.registers request current] else [] := by
  obtain ⟨rfl, hsame, outs, hlog, hsources, hall⟩ := scan_rows h
  have hrequest {subs : List ActiveSubscription} (hsubs : subs.map ActiveSubscription.request =
      s.publisher.subscriptions.map ActiveSubscription.request) :
      (subs.map ActiveSubscription.request)[j]? = some request := by
    rw [hsubs, List.getElem?_map, hwatch.subscription_at]
  obtain ⟨⟨row, source'⟩, hout, subs, net, subs', net', hsubs, hone⟩ :=
    forall₂_at hall hwatch.source_at
  obtain ⟨current, rfl, hfull, htold⟩ := row_watched hwatch htrigger hone (hrequest hsubs)
  -- the other sources do not cover the subscription
  have hothers : ∀ k' ≠ k, ∀ row', e.log[k']? = some row' → (row'[j]?).join = none := by
    intro k' hk' row' hrow'
    rw [hlog, List.getElem?_map, Option.map_eq_some_iff] at hrow'
    obtain ⟨⟨row'', other'⟩, hout', rfl⟩ := hrow'
    obtain ⟨other, hother, subs₂, net₂, subs₃, net₃, hsubs', hone'⟩ := forall₂_at hall.flip hout'
    exact row_uncovered hone' (hrequest hsubs') (hwatch.alone k' other hk' hother)
  have hreads : e.after.publisher.sources[k]? =
      some { source with lastValues := current, hasBaseline := true } := by
    rw [hsources, List.getElem?_map, hout, Option.map_some]
  refine ⟨rfl, current,
    ⟨hreads, ?_, hwatch.covers, hwatch.inside, hwatch.full, fun _ => hfull, ?_⟩, ?_, ?_⟩
  · rw [← List.getElem?_map]
    exact hrequest hsame
  · intro k' other' hk' hother'
    rw [hsources, List.getElem?_map, Option.map_eq_some_iff] at hother'
    obtain ⟨⟨row'', other''⟩, hout', rfl⟩ := hother'
    obtain ⟨other, hother, subs₂, net₂, subs₃, net₃, -, hone'⟩ := forall₂_at hall.flip hout'
    obtain ⟨-, current', net₄, -, rfl, -⟩ := scanSource_facts hone'
    exact hwatch.alone k' other hk' hother
  · rw [ScanEvent.reading, hreads]
    rfl
  · have hrow : e.log[k]? = some row := by rw [hlog, List.getElem?_map, hout, Option.map_some]
    rw [ScanEvent.issued, filterMap_only k hothers, hrow]
    exact htold

/-- If every notification issued counts as sent, a run of scans is a detector of the
changes that the test of an OnChange subscription sees. -/
theorem run_detects (sent : Issued → Bool) {n : ℕ} {events : List (ScanEvent τ)}
    (hwatch : s.publisher.Watches k j source request) (htrigger : request.trigger = .onChange)
    (hrun : runAll (scan W) (List.replicate n ()) s = .ok (events, s'))
    (hsent : ∀ e ∈ events, ∀ i ∈ e.issued j, sent i = true) :
    Sample.Detects (changed request.deadBand) (source.baseline request)
      (events.map (·.sample k j request sent)) := by
  induction n generalizing s source events with
  | zero =>
    cases hrun
    trivial
  | succ n ih =>
    obtain ⟨e, s₁, events', hfirst, hothers, rfl⟩ := runAll_cons.mp hrun
    obtain ⟨-, current, hwatch₁, hreading, htold⟩ := scan_watched hwatch htrigger hfirst
    have hall : (e.issued j).filter sent = e.issued j :=
      List.filter_eq_self.mpr (hsent e List.mem_cons_self)
    refine ⟨?_, ?_⟩
    · change ((e.issued j).filter sent).map (·.notification.currentValues) =
        if changed request.deadBand (e.reading k request) (source.baseline request) then
          [e.reading k request] else []
      rw [hall, htold, hreading]
    · have hrest := ih hwatch₁ hothers fun e' he' => hsent e' (List.mem_cons_of_mem e he')
      simp only [DataSource.baseline, if_true] at hrest
      change Sample.Detects _ (e.reading k request) _
      rw [hreading]
      exact hrest

theorem within_refl {deadBand : Double} (hband : deadBand.atLeast 0 = true) (values : List UInt16) :
    Within deadBand values values :=
  List.forall₂_same.mpr fun x _ => by rw [registerDistance, sub_self]; exact hband

/-- In every run of scans, the registers of the subscription stay within the dead band
of what was last notified if and only if the readings are steady. The same holds of what
was last delivered, if every notification is delivered. -/
theorem deadBand_tracked_iff {n : ℕ} {events : List (ScanEvent τ)}
    (hwatch : s.publisher.Watches k j source request) (htrigger : request.trigger = .onChange)
    (hband : request.deadBand.atLeast 0 = true)
    (hrun : runAll (scan W) (List.replicate n ()) s = .ok (events, s')) :
    (Sample.Tracks (Within request.deadBand) none
      (events.map (·.sample k j request fun _ => true)) ↔
      Sample.Steady (changed request.deadBand) (Within request.deadBand) none
        (source.baseline request)
        (events.map (·.reading k request))) ∧
    ((∀ e ∈ events, ∀ i ∈ e.issued j, i.delivered = true) →
      (Sample.Tracks (Within request.deadBand) none
        (events.map (·.sample k j request (·.delivered))) ↔
        Sample.Steady (changed request.deadBand) (Within request.deadBand) none
          (source.baseline request)
          (events.map (·.reading k request)))) := by
  have hiff (sent : Issued → Bool) (hsent : ∀ e ∈ events, ∀ i ∈ e.issued j, sent i = true) :
      Sample.Tracks (Within request.deadBand) none (events.map (·.sample k j request sent)) ↔
        Sample.Steady (changed request.deadBand) (Within request.deadBand) none
          (source.baseline request)
          (events.map (·.reading k request)) := by
    rw [Sample.tracks_iff_steady (within_refl hband) none _
      (run_detects sent hwatch htrigger hrun hsent), List.map_map]
    rfl
  exact ⟨hiff _ fun _ _ _ _ => rfl, hiff _⟩

/-- A world that hands out the given readings one after the other and takes every frame. -/
def scripted : World (List UInt16) where
  send _ values := .ok (.ok, values)
  receive _ values := .ok (.fail .timeoutExpired, values)
  isConnected _ := true
  now values := (⟨0⟩, values)

/-- One register, and a subscription to it with a dead band of 10. -/
def oneRegister (values : List UInt16) : Publishing (List UInt16) where
  publisher := {
    sources := [{
      start := 0, count := 1, reader := fun values => .ok ([values.headD 0], values.tail) }]
    subscriptions := [⟨1, { deadBand := .finite 10 }, ⟨0⟩⟩] }
  net := values

theorem oneRegister_watches (values : List UInt16) :
    (oneRegister values).publisher.Watches 0 0
      { start := 0, count := 1, reader := fun values => .ok ([values.headD 0], values.tail) }
      { deadBand := .finite 10 } where
  source_at := rfl
  subscription_at := rfl
  covers := by decide
  inside := by decide
  full := by
    rintro net values net' ⟨⟩
    rfl
  baseline_full := nofun
  alone := by
    rintro (_ | k') source' hk hsource
    · contradiction
    · simp [oneRegister] at hsource

theorem deadBand_tracked_jump : ∃ events last,
    runAll (scan scripted) [(), (), ()] (oneRegister [100, 105, 120]) = .ok (events, last) ∧
    events.map (·.reading 0 { deadBand := .finite 10 }) = [[100], [105], [120]] ∧
    Sample.Tracks (Within (.finite 10)) none
      (events.map (·.sample 0 0 { deadBand := .finite 10 } (·.delivered))) := by
  obtain ⟨events, last, hrun, hreadings, hdelivered⟩ : ∃ events last,
      runAll (scan scripted) (List.replicate 3 ()) (oneRegister [100, 105, 120]) =
        .ok (events, last) ∧
      events.map (·.reading 0 { deadBand := .finite 10 }) = [[100], [105], [120]] ∧
      ∀ e ∈ events, ∀ i ∈ e.issued 0, i.delivered = true := ⟨_, _, rfl, rfl, by decide⟩
  refine ⟨events, last, hrun, hreadings, ?_⟩
  refine ((deadBand_tracked_iff (oneRegister_watches _) rfl rfl hrun).2 hdelivered).mpr ?_
  rw [hreadings]
  -- 105 is compared with 100 and close to it, 120 jumps
  refine ⟨?_, trivial⟩
  rintro a ⟨⟩
  exact .cons rfl .nil

/-- The readings creep from 100 to 116 in steps within the dead band, and only the first
is notified. -/
theorem creeping_untold : ∃ events last,
    runAll (scan scripted) [(), (), ()] (oneRegister [100, 108, 116]) = .ok (events, last) ∧
    events.map (·.issued 0 |>.length) = [1, 0, 0] ∧
    ¬Sample.Tracks (Within (.finite 10)) none
      (events.map (·.sample 0 0 { deadBand := .finite 10 } (·.delivered))) := by
  refine ⟨_, _, rfl, rfl, fun htracks => ?_⟩
  have hlast : Within (.finite 10) [116] [100] := htracks [_, _] _ [] rfl [100] rfl
  cases hlast with
  | cons h _ => contradiction

end Publisher

end ModbusPp

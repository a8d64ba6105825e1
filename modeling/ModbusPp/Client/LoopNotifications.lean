import ModbusPp.Client.EventLoop
import ModbusPp.PubSub.TypedDeadBands

/-! What the event loop tells the subscribers of its own device. A turn scans after it has
handled a request, so what the request has changed is told in the turn that handles it. -/

namespace ModbusPp

open Foundation

variable {σ τ : Type}

/-- The reader does not change the device. -/
def DataSource.LeavesDevice (source : DataSource (Serving σ τ)) : Prop :=
  ∀ s values s', source.reader s = .ok (values, s') → s'.device = s.device

/-- The registers that `view` shows of the device. -/
def deviceReader (view : σ → List UInt16) (s : Serving σ τ) : Checked (List UInt16 × Serving σ τ) :=
  .ok (view s.device, s)

/-- A turn as a sampling step: the registers that are `shown` of the device that it left,
and what it told entry `j` of the subscriptions. -/
def LoopEvent.sample (shown : σ → List UInt16) (j : ℕ) : LoopEvent σ → Option (Sample (List UInt16))
  | .turned _ log device => some {
      reading := shown device
      reports := (log.filterMap fun row => (row[j]?).join).map (·.notification.currentValues) }
  | _ => none

section scan

variable {W : World τ} {s s' : Publishing (Serving σ τ)}
  {source : DataSource (Serving σ τ)} {device : σ}

/-- Pushes and readings of the clock do not change the device. -/
theorem Turn.device_eq {current : List UInt16} {sub sub' : ActiveSubscription} {n n' : Serving σ τ}
    {issued : Option Issued} (h : Publisher.Turn W.serving source current sub n issued sub' n') :
    n'.device = n.device := by
  have hnow : ∀ n : Serving σ τ, (W.serving.now n).2.device = n.device := fun _ => rfl
  cases h with
  | uncovered hcovers => rfl
  | quiet hcovers hslice hprev hnotify => exact Publisher.shouldNotify_keeps hnow hnotify
  | @told hcovers slice prevSlice n₁ n₃ delivered hslice hprev hnotify hpush =>
    have hpushed : n₃.device = n₁.device := by
      rcases Publisher.push_cases hpush with ⟨-, -, rfl⟩ | ⟨sent, -, hsend, -⟩
      · rfl
      · obtain ⟨⟨r, net⟩, -, hsend⟩ := bind_eq_ok.mp hsend
        cases hsend
        rfl
    exact hpushed.trans (Publisher.shouldNotify_keeps hnow hnotify)

theorem scan_device {e : ScanEvent (Serving σ τ)}
    (hleave : ∀ source ∈ s.publisher.sources, source.LeavesDevice)
    (h : Publisher.scan W.serving () s = .ok (e, s')) :
    (∀ source ∈ s'.publisher.sources, source.LeavesDevice) ∧ s'.net.device = s.net.device ∧
      ∀ source ∈ s'.publisher.sources, ∀ view, source.reader = deviceReader view →
        source.lastValues = view s.net.device := by
  refine ⟨?_, ?_⟩
  · intro source' hsource'
    obtain ⟨source, hsource, hreader⟩ := Publisher.scan_readers h source' hsource'
    rw [DataSource.LeavesDevice, hreader]
    exact hleave source hsource
  obtain ⟨⟨log, s₁⟩, hscan, h⟩ := bind_eq_ok.mp h
  cases h
  obtain ⟨⟨outs, subs, net⟩, hsources, hscan⟩ := bind_eq_ok.mp hscan
  cases hscan
  have hone : ∀ source p out p', p.2.device = s.net.device → source.LeavesDevice →
      Publisher.scanSource W.serving source p = .ok (out, p') → p'.2.device = s.net.device ∧
        ∀ view, out.2.reader = deviceReader view → out.2.lastValues = view s.net.device := by
    rintro source ⟨subs, net⟩ ⟨row, source'⟩ ⟨subs', net'⟩ hnet hleaves hone
    obtain ⟨hnet', current, net₁, outs, hread, rfl, -⟩ :=
      Publisher.scanSource_turns (fun n => n.device = s.net.device)
      (fun current net₁ hread => (hleaves _ _ _ hread).trans hnet)
      (fun current sub n issued sub' n' hn hturn => (Turn.device_eq hturn).trans hn) hone
    refine ⟨hnet', fun view hview => ?_⟩
    rw [show source.reader = deviceReader view from hview] at hread
    cases hread
    exact congrArg view hnet
  obtain ⟨hdevice, hall⟩ :=
    runAll_keeps_guarded _ _ hone s.publisher.sources rfl (guarded_of_forall hleave _) hsources
  refine ⟨hdevice, fun source' hsource' => ?_⟩
  obtain ⟨out, hout, rfl⟩ := List.mem_map.mp hsource'
  exact hall out hout

end scan

section run

variable {server : Server σ} {W : World τ} {arrive : List UInt8 → τ → τ}
  {s s' : Publishing (Serving σ τ)}
  {source : DataSource (Serving σ τ)} {request : SubscriptionRequest}
    {view : σ → List UInt16} {k j : ℕ}
  {shown : σ → List UInt16} {move : LoopMove σ τ} {e : LoopEvent σ}

/-- A turn tells the registers of the device that it leaves, if they have changed since the
baseline, and makes them the new one. -/
theorem turn_watched (hleave : ∀ source ∈ s.publisher.sources, source.LeavesDevice)
    (hwatch : s.publisher.Watches k j source request) (hreader : source.reader = deviceReader view)
    (htrigger : request.trigger = .onChange)
    (hshown : ∀ device, shown device = source.registers request (view device))
    (h : server.loopStep W arrive .turn s = .ok (e, s')) :
    (∀ source ∈ s'.publisher.sources, source.LeavesDevice) ∧
      s'.publisher.Watches k j
        { source with lastValues := view s'.net.device, hasBaseline := true } request ∧
      ∃ sample, e.sample shown j = some sample ∧ sample.reading = shown s'.net.device ∧
        sample.reports =
          if changed request.deadBand sample.reading (source.baseline request) then [sample.reading]
          else [] := by
  obtain ⟨⟨⟨handled, log⟩, s₁⟩, hturn, h⟩ := bind_eq_ok.mp h
  cases h
  obtain ⟨⟨handled', net⟩, -, hturn⟩ := bind_eq_ok.mp hturn
  obtain ⟨⟨log', s₂⟩, hscan, hturn⟩ := bind_eq_ok.mp hturn
  cases hturn
  have hscan' :
      Publisher.scan W.serving () ⟨s.publisher, net⟩ = .ok (⟨log, ⟨s.publisher, net⟩, s'⟩, s') := by
    rw [Publisher.scan, hscan]
    rfl
  obtain ⟨hleave', hdevice, hshows⟩ := scan_device (s := ⟨s.publisher, net⟩) hleave hscan'
  obtain ⟨-, current, hwatch', -, htold⟩ :=
    Publisher.scan_watched (s := ⟨s.publisher, net⟩) hwatch htrigger hscan'
  obtain rfl : current = view s'.net.device := by
    rw [hdevice]
    exact hshows _ (List.mem_of_getElem? hwatch'.source_at) view hreader
  rw [← hshown] at htold
  exact ⟨hleave', hwatch', _, rfl, rfl, htold⟩

theorem run_detects_device (hleave : ∀ source ∈ s.publisher.sources, source.LeavesDevice)
    (hwatch : s.publisher.Watches k j source request) (hreader : source.reader = deviceReader view)
    (htrigger : request.trigger = .onChange)
    (hshown : ∀ device, shown device = source.registers request (view device))
    (moves : List (LoopMove σ τ)) (hmoves : ∀ move ∈ moves, move.plain.isSome)
    {events : List (LoopEvent σ)} {last : Publishing (Serving σ τ)}
    (hrun : runAll (server.loopStep W arrive) moves s = .ok (events, last)) :
    Sample.Detects (changed request.deadBand) (source.baseline request)
      (events.filterMap (·.sample shown j)) ∧
      ∀ sample ∈ events.filterMap (·.sample shown j), ∃ device, sample.reading = shown device := by
  induction moves generalizing s source events with
  | nil =>
    cases hrun
    exact ⟨trivial, List.forall_mem_nil _⟩
  | cons move moves ih =>
    obtain ⟨e, s₁, events', hfirst, hothers, rfl⟩ := runAll_cons.mp hrun
    rw [List.forall_mem_cons] at hmoves
    obtain ⟨hmove, hmoves⟩ := hmoves
    cases move with
    | arrive frame =>
      cases hfirst
      rw [List.filterMap_cons_none rfl]
      exact ih (s := { s with net := { s.net with net := arrive frame s.net.net } })
        hleave hwatch hreader hshown hmoves
        hothers
    | turn =>
      obtain ⟨hleave', hwatch', sample, hsample, hreading, hreports⟩ :=
        turn_watched hleave hwatch hreader htrigger hshown hfirst
      obtain ⟨hdetects, hall⟩ := ih hleave' hwatch' hreader hshown hmoves hothers
      rw [List.filterMap_cons_some hsample]
      refine ⟨⟨hreports, ?_⟩, List.forall_mem_cons.mpr ⟨⟨_, hreading⟩, hall⟩⟩
      rw [hreading, hshown]
      exact hdetects
    | publish call => cases hmove

end run

theorem eq_of_unchanged {current previous : List UInt16}
    (hlength : current.length = previous.length)
    (h : changed (.finite 0) current previous = false) : current = previous := by
  rw [changed, Bool.or_eq_false_iff, List.any_eq_false] at h
  refine List.ext_getElem hlength fun i hi hi' => ?_
  have hpair : (current[i], previous[i]) ∈ current.zip previous := by
    rw [← List.getElem_zip (h := by rw [List.length_zip]; omega)]
    exact List.getElem_mem _
  have hbelow : ¬(0 : ℚ) < (registerDistance current[i] previous[i] : ℕ) := by
    simpa [Double.below] using h.2 _ hpair
  rw [Nat.cast_pos, Nat.pos_iff_ne_zero, not_not] at hbelow
  exact (registerDistance_eq_zero _ _).mp hbelow

section told

variable {p : Publisher (Serving σ τ)} {source : DataSource (Serving σ τ)}
  {request : SubscriptionRequest}
  {view : σ → List UInt16} {k j : ℕ}

theorem length_registers {values : List UInt16} (hfull : values.length = source.count.toNat) :
    (source.registers request values).length =
      min request.count.toNat
        (source.count.toNat - (request.startAddress.toNat - source.start.toNat)) := by
  rw [DataSource.registers, List.length_take, List.length_drop, hfull]

theorem baseline_regular (hwatch : p.Watches k j source request) :
    (source.baseline request).length =
        min request.count.toNat
          (source.count.toNat - (request.startAddress.toNat - source.start.toNat)) ∨
      ∀ x, changed request.deadBand x (source.baseline request) = true := by
  unfold DataSource.baseline
  split_ifs with hbase
  · exact .inl (length_registers (hwatch.baseline_full hbase))
  · exact .inr fun _ => rfl

/-- In every run of the loop, each turn tells an OnChange subscription the registers of the
device, as the request handled in that turn has left it, exactly if they have changed since
the turn before. With a dead band of zero, the device has after every turn the registers
that were last told. -/
theorem told_at_once (server : Server σ) {W : World τ} {arrive : List UInt8 → τ → τ}
    {s last : Publishing (Serving σ τ)} {moves : List (LoopMove σ τ)} {events : List (LoopEvent σ)}
    (hleave : ∀ source ∈ s.publisher.sources, source.LeavesDevice)
    (hwatch : s.publisher.Watches k j source request)
    (hreader : source.reader = deviceReader view) (htrigger : request.trigger = .onChange)
    (hmoves : ∀ move ∈ moves, move.plain.isSome)
    (hrun : runAll (server.loopStep W arrive) moves s = .ok (events, last)) :
    Sample.Detects (changed request.deadBand) (source.baseline request)
        (events.filterMap (·.sample (fun device => source.registers request (view device)) j)) ∧
      (request.deadBand = .finite 0 → Sample.Tracks Eq none
        (events.filterMap
          (·.sample (fun device => source.registers request (view device)) j))) := by
  obtain ⟨hdetects, hall⟩ :=
    run_detects_device hleave hwatch hreader htrigger (fun _ => rfl) moves hmoves hrun
  refine ⟨hdetects, fun hband => (Sample.tracks_iff_steady (fun _ => rfl) none _ hdetects).mpr ?_⟩
  refine Sample.steady_of_exact (fun x => x.length =
    min request.count.toNat
      (source.count.toNat - (request.startAddress.toNat - source.start.toNat))) ?_ ?_
    (baseline_regular hwatch) nofun
  · rw [hband]
    exact fun x y hx hy => eq_of_unchanged (hx.trans hy.symm)
  · intro x hx
    obtain ⟨sample, hsample, rfl⟩ := List.mem_map.mp hx
    obtain ⟨device, hreading⟩ := hall sample hsample
    rw [hreading]
    refine length_registers (hwatch.full { s.net with device } _ { s.net with device } ?_)
    rw [hreader]
    rfl

end told

theorem meterStart_watches (value : UInt16) : (meterStart value).publisher.Watches 0 0
    { start := 0, count := 1, reader := deviceReader fun value => [value] } {} where
  source_at := rfl
  subscription_at := rfl
  covers := by decide
  inside := by decide
  full := by
    rintro net values net' ⟨⟩
    rfl
  baseline_full := nofun
  alone := by
    rintro (_ | k') source' hk hsource
    · contradiction
    · simp [meterStart] at hsource

/-- The write is told in its own turn, and the read tells nothing. -/
theorem told_at_once_meter : ∃ events last,
    runAll (meter.loopStep Loopback.serverWorld Loopback.peerSends)
      (writeThenRead.flatMap fun frame => [.arrive frame, .turn]) (meterStart 3) =
        .ok (events, last) ∧
    (events.filterMap (·.sample (fun value => [value]) 0)).map Sample.reports = [[[7]], []] ∧
    Sample.Tracks Eq none (events.filterMap (·.sample (fun value => [value]) 0)) := by
  obtain ⟨events, last, hrun, hreports⟩ : ∃ events last,
      runAll (meter.loopStep Loopback.serverWorld Loopback.peerSends)
        (writeThenRead.flatMap fun frame => [.arrive frame, .turn]) (meterStart 3) =
          .ok (events, last) ∧
      (events.filterMap (·.sample (fun value => [value]) 0)).map Sample.reports = [[[7]], []] :=
        ⟨_, _, rfl, rfl⟩
  have hleave : ∀ source ∈ (meterStart 3).publisher.sources, source.LeavesDevice := by
    rintro source hsource
    obtain rfl := List.mem_singleton.mp hsource
    rintro s values s' ⟨⟩
    rfl
  have hreader : (⟨0, 1, deviceReader fun value => [value], [], false⟩ : DataSource
    (Serving UInt16 Loopback)).reader =
      deviceReader fun value => [value] := rfl
  refine ⟨events, last, hrun, hreports, ?_⟩
  exact (told_at_once meter hleave (meterStart_watches 3) hreader rfl (by decide) hrun).2 rfl

end ModbusPp

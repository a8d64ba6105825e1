import ModbusPp.PubSub.Delivery
import ModbusPp.PubSub.QuietSources

/-! Pushes that fail. `scan_and_notify` ignores what `send` returns: the notification is
counted, the subscription is marked as notified and the values become the baseline,
whether or not the transport took the frame. -/

namespace ModbusPp

open Foundation

variable {τ : Type}

/-- The frames that the transport has accepted so far. -/
structure World.Accepting (W : World τ) (accepted : τ → List (List UInt8)) : Prop where
  send : ∀ frame net result net', W.send frame net = .ok (result, net') →
    accepted net' = accepted net ++ if result.hasValue then [frame] else []
  now : ∀ net, accepted (W.now net).2 = accepted net

/-- `R` says which frames the transport has accepted so far: a send adds its frame, if it
succeeds. -/
structure World.Records (W : World τ) (R : τ → List (List UInt8) → Prop) : Prop where
  send : ∀ frame net result net' frames, R net frames → W.send frame net = .ok (result, net') →
    R net' (frames ++ if result.hasValue then [frame] else [])
  now : ∀ net frames, R net frames → R (W.now net).2 frames

theorem World.Accepting.records {W : World τ} {accepted : τ → List (List UInt8)}
    (hW : W.Accepting accepted) :
    W.Records fun net frames => accepted net = frames where
  send := by
    rintro frame net result net' frames rfl hsend
    exact hW.send frame net result net' hsend
  now net frames hframes := (hW.now net).trans hframes

/-- The reader sends nothing, as far as `R` can tell. -/
def DataSource.Keeps (R : τ → List (List UInt8) → Prop) (source : DataSource τ) : Prop :=
  ∀ net values net' frames, R net frames → source.reader net = .ok (values, net') → R net' frames

theorem DataSource.Aside.keeps {accepted : τ → List (List UInt8)}
    {source : DataSource τ} (haside : source.Aside accepted) :
    source.Keeps fun net frames => accepted net = frames :=
  fun net values net' _ hframes hread => (haside net values net' hread).trans hframes

/-- The readers of the run do not touch the transport. -/
def PublisherCall.Aside (accepted : τ → List (List UInt8)) : PublisherCall τ → Prop
  | .register start count reader =>
      (⟨start, count, reader, [], false⟩ : DataSource τ).Aside accepted
  | _ => True

/-- The frame of a notification, if the transport took it. -/
def Issued.frames (i : Issued) :
    List (List UInt8) := if i.delivered then [i.notification.frame] else []

namespace PublisherEvent

/-- The notifications of a scan, with what became of their pushes. -/
def pushes (e : PublisherEvent τ) : List Issued :=
  match e.outcome with
  | .scanned log => log.flatMap fun row => row.flatMap Option.toList
  | _ => []

/-- The number that `scan_and_notify` returns. -/
def notificationsSent (e : PublisherEvent τ) : ℕ := e.outcome.issued.length

theorem notificationsSent_eq (e : PublisherEvent τ) : e.notificationsSent = e.pushes.length := by
  unfold notificationsSent pushes PublisherOutcome.issued
  cases e.outcome with
  | scanned log => simp only [issuedIn, ← List.map_flatMap, List.length_map]
  | registered => rfl
  | accepted id => rfl
  | removed result => rfl

end PublisherEvent

namespace Publisher

variable {W : World τ} {accepted : τ → List (List UInt8)} {s s' : Publishing τ}

section Records

variable {R : τ → List (List UInt8) → Prop} (hW : W.Records R)
include hW

theorem notifyOne_records {source : DataSource τ} {current : List UInt16}
    {sub sub' : ActiveSubscription} {net net' : τ} {issued : Option Issued}
    {frames : List (List UInt8)} (hR : R net frames)
    (h : notifyOne W source current sub net = .ok ((issued, sub'), net')) :
    R net' (frames ++ issued.toList.flatMap Issued.frames) := by
  have hnotified {net₁ : τ} {slice prevSlice : List UInt16} {notify : Bool}
      (hnotify : shouldNotify W sub slice prevSlice net = .ok (notify, net₁)) : R net₁ frames := by
    rcases shouldNotify_net hnotify with rfl | rfl
    · exact hR
    · exact hW.now net frames hR
  cases notifyOne_turn h with
  | uncovered hcovers => rwa [Option.toList_none, List.flatMap_nil, List.append_nil]
  | quiet hcovers hslice hprev hnotify =>
    rw [Option.toList_none, List.flatMap_nil, List.append_nil]
    exact hnotified hnotify
  | @told hcovers slice prevSlice net₁ net₃ delivered hslice hprev hnotify hpush =>
    have hstamped : R (W.now net₁).2 frames := hW.now net₁ frames (hnotified hnotify)
    rw [Option.toList_some, List.flatMap_singleton, Issued.frames]
    refine hW.now net₃ _ ?_
    rcases push_cases hpush with ⟨-, rfl, rfl⟩ | ⟨sent, -, hsend, rfl⟩
    · rwa [if_neg Bool.false_ne_true, List.append_nil]
    · exact hW.send _ _ sent _ frames hstamped hsend

theorem scanSource_records {source source' : DataSource τ}
    {subs subs' : List ActiveSubscription} {net net' : τ} {row : List (Option Issued)}
    {frames : List (List UInt8)} (hreader : source.Keeps R) (hR : R net frames)
    (h : scanSource W source (subs, net) = .ok ((row, source'), subs', net')) :
    R net' (frames ++ (row.flatMap Option.toList).flatMap Issued.frames) := by
  obtain ⟨⟨current, net₁⟩, hread, h⟩ := bind_eq_ok.mp h
  obtain ⟨⟨outs, net₂⟩, hsubs, h⟩ := bind_eq_ok.mp h
  cases h
  have hall := runAll_appends R
    (fun o : Option Issued × ActiveSubscription => o.1.toList.flatMap Issued.frames) subs ?_
    (hreader net current net₁ frames hR hread) hsubs
  · rwa [List.flatMap_map, List.flatMap_assoc]
  · rintro sub - net o net' frames hR hone
    exact notifyOne_records hW hR hone

/-- The frames that the transport accepts in a scan are those of the pushes that succeed. -/
theorem scanAndNotify_records {log : List (List (Option Issued))} {frames : List (List UInt8)}
    (hreaders : ∀ source ∈ s.publisher.sources, source.Keeps R) (hR : R s.net frames)
    (h : scanAndNotify W s = .ok (log, s')) :
    R s'.net (frames ++ (log.flatMap fun row => row.flatMap Option.toList).flatMap
      Issued.frames) := by
  obtain ⟨⟨outs, subs, net⟩, hsources, h⟩ := bind_eq_ok.mp h
  cases h
  have hall := runAll_appends (fun (p : List ActiveSubscription × τ) frames => R p.2 frames)
    (fun o : List (Option Issued) × DataSource τ =>
      (o.1.flatMap Option.toList).flatMap Issued.frames)
    s.publisher.sources ?_ hR hsources
  · rwa [List.flatMap_map, List.flatMap_assoc]
  · rintro source hsource ⟨subs, net⟩ ⟨row, source'⟩ ⟨subs', net'⟩ frames hR hone
    exact scanSource_records hW (hreaders source hsource) hR hone

end Records

section Accepting

variable (hW : W.Accepting accepted)
include hW

theorem scanAndNotify_accepted {log : List (List (Option Issued))}
    (haside : ∀ source ∈ s.publisher.sources, source.Aside accepted)
    (h : scanAndNotify W s = .ok (log, s')) :
    accepted s'.net = accepted s.net ++
      (log.flatMap fun row => row.flatMap Option.toList).flatMap Issued.frames :=
  scanAndNotify_records hW.records (fun source hsource => (haside source hsource).keeps) rfl h

theorem step_accepted {call : PublisherCall τ} {e : PublisherEvent τ}
    (haside : ∀ source ∈ s.publisher.sources, source.Aside accepted) (hcall : call.Aside accepted)
    (h : step W call s = .ok (e, s')) :
    (∀ source ∈ s'.publisher.sources, source.Aside accepted) ∧
      accepted e.after.net = accepted e.before.net ++ e.pushes.flatMap Issued.frames := by
  obtain ⟨-, rfl, rfl, hperform⟩ := step_event h
  have hnothing : accepted e.after.net = accepted e.before.net → e.pushes = [] →
      accepted e.after.net = accepted e.before.net ++ e.pushes.flatMap Issued.frames := by
    intro hsame hnone
    rw [hsame, hnone, List.flatMap_nil, List.append_nil]
  cases call with
  | register start count reader =>
    obtain ⟨houtcome, hafter⟩ := Prod.mk.inj (Except.ok.inj hperform)
    rw [← hafter] at hnothing ⊢
    refine ⟨?_, hnothing rfl (by rw [PublisherEvent.pushes, ← houtcome])⟩
    exact List.forall_mem_append.mpr ⟨haside, List.forall_mem_singleton.mpr hcall⟩
  | accept request =>
    obtain ⟨houtcome, -, -, hsources, hnet⟩ := perform_accept hperform
    rw [hsources]
    exact ⟨haside, hnothing (by rw [hnet, hW.now]) (by rw [PublisherEvent.pushes, houtcome])⟩
  | remove id =>
    obtain ⟨result, houtcome, -, -, -, hsources, hnet⟩ := perform_remove hperform
    rw [hsources]
    exact ⟨haside, hnothing (by rw [hnet]) (by rw [PublisherEvent.pushes, houtcome])⟩
  | scan =>
    obtain ⟨log, houtcome, hscan⟩ := perform_scan hperform
    refine ⟨scan_aside haside hscan, ?_⟩
    obtain ⟨⟨log', t⟩, hlog, heq⟩ := bind_eq_ok.mp hscan
    cases heq
    rw [PublisherEvent.pushes, houtcome]
    exact scanAndNotify_accepted hW haside hlog

end Accepting

/-- What a scan failed to push to an OnChange subscription is pushed by the next scan, if
the subscription is still active, the values are the same and no push fails then. -/
def Retried (events : List (PublisherEvent τ)) : Prop :=
  ∀ (earlier between later : List (PublisherEvent τ)) (first second : PublisherEvent τ),
    events = earlier ++ first :: (between ++ second :: later) →
    first.call = .scan → (∀ e ∈ between, e.call.isScan = false) → second.call = .scan →
    first.after.readings = second.after.readings → (∀ i ∈ second.pushes, i.delivered = true) →
    ∀ failed ∈ first.pushes, failed.delivered = false →
      ∀ sub ∈ second.before.publisher.subscriptions, sub.id = failed.notification.subscriptionId →
        sub.request.trigger = .onChange →
        ∃ again ∈ second.pushes,
          again.notification.subscriptionId = failed.notification.subscriptionId ∧
          again.notification.currentValues = failed.notification.currentValues

theorem length_frames_eq_iff (pushes : List Issued) :
    (pushes.flatMap Issued.frames).length = pushes.length ↔ ∀ i ∈ pushes, i.delivered = true := by
  have hcount : (pushes.flatMap Issued.frames).length = pushes.countP (·.delivered) := by
    induction pushes with
    | nil => rfl
    | cons i pushes ih =>
      rw [List.flatMap_cons, List.length_append, ih, List.countP_cons, Nat.add_comm, Issued.frames]
      cases i.delivered <;> rfl
  rw [hcount, List.countP_eq_length]

/-- In every run, each scan returns the number of frames that the transport accepted in it
and what fails to be pushed is pushed again, if and only if no push fails. -/
theorem failed_pushes_kept_iff (hW : W.Accepting accepted) {calls : List (PublisherCall τ)}
    {events : List (PublisherEvent τ)} {net : τ} {last : Publishing τ}
    (hrun : runAll (step W) calls ⟨{}, net⟩ = .ok (events, last))
    (haside : ∀ call ∈ calls, call.Aside accepted) :
    (∀ e ∈ events, (accepted e.after.net).length = (accepted e.before.net).length +
      e.notificationsSent) ∧
        Retried events ↔ ∀ e ∈ events, ∀ i ∈ e.pushes, i.delivered = true := by
  obtain ⟨-, hsent⟩ :=
    runAll_keeps_guarded (fun s => ∀ source ∈ s.publisher.sources, source.Aside accepted)
    (fun e => accepted e.after.net = accepted e.before.net ++ e.pushes.flatMap Issued.frames)
    (fun _ _ _ _ hs hcall h => step_accepted hW hs hcall h) calls (List.forall_mem_nil _)
    (guarded_of_forall haside _) hrun
  have hcount : ∀ e ∈ events,
    ((accepted e.after.net).length = (accepted e.before.net).length + e.notificationsSent ↔
      ∀ i ∈ e.pushes, i.delivered = true) := by
    intro e he
    rw [hsent e he, List.length_append, Nat.add_left_cancel_iff, e.notificationsSent_eq,
      length_frames_eq_iff]
  constructor
  · rintro ⟨hall, -⟩ e he
    exact (hcount e he).mp (hall e he)
  · intro hall
    refine ⟨fun e he => (hcount e he).mpr (hall e he), ?_⟩
    rintro earlier between later first second rfl - - - - - failed hmem hfailed
    rw [hall first (by simp) failed hmem] at hfailed
    contradiction

/-- A world that holds the answers to the sends to come, and the frames accepted so far. -/
def faltering : World (List Bool × List (List UInt8)) where
  send frame s :=
    match s.1 with
    | false :: answers => .ok (.fail .transportDisconnected, answers, s.2)
    | answers => .ok (.ok, answers.tail, s.2 ++ [frame])
  receive _ s := .ok (.fail .timeoutExpired, s)
  isConnected _ := true
  now s := (⟨0⟩, s)

theorem faltering_accepting : faltering.Accepting Prod.snd where
  send := by
    rintro frame ⟨_ | ⟨_ | _, answers⟩, frames⟩ result net' h
    · cases h
      rfl
    · cases h
      exact (List.append_nil _).symm
    · cases h
      rfl
  now _ := rfl

/-- A reader that always returns the same. -/
def readFive (s : List Bool × List (List UInt8)) :
    Checked (List UInt16 × List Bool × List (List UInt8)) := .ok ([5], s)

theorem failed_pushes_kept_working : ∃ events last,
    runAll (step faltering) [.register 0 1 readFive, .accept {}, .scan, .scan] ⟨{}, [], []⟩ =
      .ok (events, last) ∧
    (∀ e ∈ events, e.after.net.2.length = e.before.net.2.length + e.notificationsSent) ∧
    Retried events := by
  obtain ⟨events, last, hrun, hall⟩ : ∃ events last,
      runAll (step faltering) [.register 0 1 readFive, .accept {}, .scan, .scan] ⟨{}, [], []⟩ =
        .ok (events, last) ∧
      ∀ e ∈ events, ∀ i ∈ e.pushes, i.delivered = true := ⟨_, _, rfl, by decide⟩
  refine ⟨events, last, hrun, (failed_pushes_kept_iff faltering_accepting hrun ?_).mpr hall⟩
  refine List.forall_mem_cons.mpr ⟨?_, by simp [PublisherCall.Aside]⟩
  rintro net values net' ⟨⟩
  rfl

/-- The first push fails. It is counted, and the next scan reads the same value and pushes
nothing, over a transport that works again. -/
theorem failed_push_forgotten : ∃ earlier first second last,
    runAll (step faltering) [.register 0 1 readFive, .accept {}, .scan, .scan] ⟨{}, [false], []⟩ =
      .ok (earlier ++ [first, second], last) ∧
    first.notificationsSent = 1 ∧ first.after.net.2 = [] ∧
    first.pushes.map (·.delivered) = [false] ∧
    first.after.readings = second.after.readings ∧ second.before.net.1 = [] ∧
    second.before.publisher.subscriptions.map (fun sub => (sub.id, sub.request.trigger)) =
      [(1, .onChange)] ∧
    second.pushes = [] ∧ second.after.net.2 = [] :=
  ⟨[_, _], _, _, _, rfl, rfl, rfl, rfl, rfl, rfl, rfl, rfl, rfl⟩

end Publisher

end ModbusPp

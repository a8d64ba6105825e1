import ModbusPp.Foundation.Fifo
import ModbusPp.Foundation.Spacing
import ModbusPp.PubSub.Coverage

/-! The rate of a Periodic subscription. A turn that notifies it reads the clock three
times: to decide, to stamp the notification, and to note when the subscription was last
notified. On a clock that does not go back the stamp lies between the other two, so each
stamp is an interval after the time noted before it, also within one scan. -/

namespace ModbusPp

open Foundation

variable {τ : Type}

/-- The clock never goes back: it shows `time` at least, and never less than it has shown. -/
structure World.Forward (W : World τ) (time : τ → ℤ) : Prop where
  now_ge : ∀ net, time net ≤ (W.now net).1.usSinceEpoch.toInt
  after_now : ∀ net, (W.now net).1.usSinceEpoch.toInt ≤ time (W.now net).2
  send : ∀ frame net result net', W.send frame net = .ok (result, net') → time net ≤ time net'

/-- The time in a notification, in microseconds. -/
def EventNotification.stamp (notif : EventNotification) : ℤ := notif.timestamp.usSinceEpoch.toInt

def ActiveSubscription.notedAt (sub : ActiveSubscription) : ℤ := sub.lastNotified.usSinceEpoch.toInt

/-- What becomes of entry `j` of the subscriptions, which only its removal ends. -/
def PublisherEvent.follow (j : ℕ) (e : PublisherEvent τ) : Option ℕ :=
  match e.call with
  | .remove id =>
    if (e.before.publisher.subscriptions[j]?).any (·.id = id) then none
    else some ((e.before.publisher.subscriptions.take j).countP (·.id ≠ id))
  | _ => some j

/-- The notifications that a run issues for entry `j` of the subscriptions, as long as it
is active. -/
def notificationsOf : ℕ → List (PublisherEvent τ) → List EventNotification
  | _, [] => []
  | j, e :: events => (e.issuedFor j).map Issued.notification ++
      (e.follow j).toList.flatMap (notificationsOf · events)

namespace Publisher

variable {W : World τ} {time : τ → ℤ} {s s' : Publishing τ}
  {sub : ActiveSubscription} {interval : Int64} {j : ℕ}

/-- The subscription is to be notified at the interval. -/
structure Periodic (interval : Int64) (request : SubscriptionRequest) : Prop where
  trigger : request.trigger = .periodic
  every : request.interval = some interval
  positive : 0 < interval.toInt

/-- The interval in microseconds. -/
def intervalUs (interval : Int64) : ℤ := interval.toInt * 1000

section Forward

variable (hW : W.Forward time)
include hW

/-- A turn notifies the subscription an interval after it was last notified at the
earliest, and notes a time that is not before the stamp. -/
theorem Turn.paced {source : DataSource τ} {current : List UInt16}
    {sub' : ActiveSubscription} {net net' : τ} {issued : Option Issued}
    (hperiodic : Periodic interval sub.request)
    (h : Turn W source current sub net issued sub' net') :
    Paced (intervalUs interval) sub.notedAt (issued.toList.map (·.notification.stamp))
      sub'.notedAt := by
  have hpositive := hperiodic.positive
  cases h with
  | uncovered hcovers => exact .nil le_rfl
  | quiet hcovers hslice hprev hnotify => exact .nil le_rfl
  | @told hcovers slice prevSlice net₁ net₃ delivered hslice hprev hnotify hpush =>
    obtain ⟨hdue, rfl⟩ : intervalUs interval ≤ (W.now net).1.usSinceEpoch.toInt - sub.notedAt ∧
        (W.now net).2 = net₁ := by
      simp only [shouldNotify, hperiodic.trigger, hperiodic.every] at hnotify
      obtain ⟨elapsedUs, helapsed, hnotify⟩ := bind_eq_ok.mp hnotify
      obtain ⟨us, hus, hnotify⟩ := bind_eq_ok.mp hnotify
      obtain ⟨hdecided, hnet⟩ := Prod.mk.inj (Except.ok.inj hnotify)
      have hle := Int64.le_iff_toInt_le.mp (of_decide_eq_true hdecided)
      rw [toInt_of_signed helapsed, toInt_of_signed hus] at hle
      exact ⟨hle, hnet⟩
    have hsent : time (W.now (W.now net).2).2 ≤ time net₃ := by
      rcases push_cases hpush with ⟨-, -, rfl⟩ | ⟨sent, -, hsend, -⟩
      · exact le_rfl
      · exact hW.send _ _ sent _ hsend
    -- decision, stamp and note, in this order
    have hdecided : (W.now net).1.usSinceEpoch.toInt ≤ (W.now (W.now net).2).1.usSinceEpoch.toInt :=
      (hW.after_now net).trans (hW.now_ge _)
    have hnoted : (W.now (W.now net).2).1.usSinceEpoch.toInt ≤ (W.now net₃).1.usSinceEpoch.toInt :=
      (hW.after_now _).trans (hsent.trans (hW.now_ge net₃))
    refine .single ?_ ?_ hnoted
    · rw [intervalUs]
      omega
    · change sub.notedAt + intervalUs interval ≤ (W.now (W.now net).2).1.usSinceEpoch.toInt
      omega

theorem scanSource_paced {source source' : DataSource τ}
    {subs subs' : List ActiveSubscription} {net net' : τ} {row : List (Option Issued)}
    (h : scanSource W source (subs, net) = .ok ((row, source'), subs', net'))
    (hsub : subs[j]? = some sub) (hperiodic : Periodic interval sub.request) :
    ∃ sub', subs'[j]? = some sub' ∧ sub'.id = sub.id ∧ sub'.request = sub.request ∧
      Paced (intervalUs interval) sub.notedAt ((row[j]?).join.toList.map (·.notification.stamp))
        sub'.notedAt := by
  obtain ⟨-, current, net₁, outs, -, -, rfl, rfl, hall⟩ :=
    scanSource_turns (fun _ => True) (fun _ _ _ => trivial) (fun _ _ _ _ _ _ _ _ => trivial) h
  obtain ⟨⟨issued, sub'⟩, hout, n, n', -, hturn⟩ := forall₂_at hall hsub
  refine ⟨sub', by rw [List.getElem?_map, hout]; rfl, hturn.facts.1, hturn.facts.2.1, ?_⟩
  rw [List.getElem?_map, hout]
  exact hturn.paced hW hperiodic

theorem scan_paced {e : ScanEvent τ} (h : scan W () s = .ok (e, s'))
    (hsub : s.publisher.subscriptions[j]? = some sub) (hperiodic : Periodic interval sub.request) :
    ∃ sub', s'.publisher.subscriptions[j]? = some sub' ∧ sub'.id = sub.id ∧
      sub'.request = sub.request ∧
      Paced (intervalUs interval) sub.notedAt ((e.issued j).map (·.notification.stamp))
        sub'.notedAt := by
  obtain ⟨⟨log, t⟩, hscan, h⟩ := bind_eq_ok.mp h
  cases h
  obtain ⟨⟨outs, subs, net⟩, hsources, hscan⟩ := bind_eq_ok.mp hscan
  cases hscan
  have hall := runAll_appends
    (fun (p : List ActiveSubscription × τ) stamps => ∃ sub', p.1[j]? = some sub' ∧
      sub'.id = sub.id ∧
      sub'.request = sub.request ∧ Paced (intervalUs interval) sub.notedAt stamps sub'.notedAt)
    (fun o : List (Option Issued) × DataSource τ =>
      (o.1[j]?).join.toList.map (·.notification.stamp))
    s.publisher.sources ?_ ⟨sub, hsub, rfl, rfl, .nil le_rfl⟩ hsources
  · obtain ⟨sub', hsub', hid, hrequest, hpaced⟩ := hall
    refine ⟨sub', hsub', hid, hrequest, ?_⟩
    rw [List.nil_append] at hpaced
    rw [ScanEvent.issued, List.filterMap_eq_flatMap_toList, List.map_flatMap, List.flatMap_map]
    exact hpaced
  · rintro source - ⟨subs, net⟩ ⟨row, source'⟩ ⟨subs', net'⟩ stamps
      ⟨sub₁, hsub₁, hid₁, hrequest₁, hpaced⟩ hone
    obtain ⟨sub₂, hsub₂, hid₂, hrequest₂, hnext⟩ :=
      scanSource_paced hW hone hsub₁ (hrequest₁ ▸ hperiodic)
    exact ⟨sub₂, hsub₂, hid₂.trans hid₁, hrequest₂.trans hrequest₁, hpaced.trans hnext⟩

omit hW in
theorem filter_at {α : Type} {keep : α → Bool} {l : List α} {j : ℕ} {a : α} (ha : l[j]? = some a)
    (hkeep : keep a = true) : (l.filter keep)[(l.take j).countP keep]? = some a := by
  induction l generalizing j with
  | nil => cases ha
  | cons b l ih =>
    cases j with
    | zero =>
      cases ha
      rw [List.filter_cons_of_pos hkeep]
      rfl
    | succ j =>
      rw [List.take_succ_cons]
      by_cases hb : keep b = true
      · rw [List.filter_cons_of_pos hb, List.countP_cons_of_pos hb, List.getElem?_cons_succ]
        exact ih ha
      · rw [List.filter_cons_of_neg hb, List.countP_cons_of_neg hb]
        exact ih ha

theorem step_paced {call : PublisherCall τ} {e : PublisherEvent τ}
    (hsub : s.publisher.subscriptions[j]? = some sub) (hperiodic : Periodic interval sub.request)
    (h : step W call s = .ok (e, s')) :
    (e.follow j = none ∧ e.issuedFor j = []) ∨ ∃ j' sub', e.follow j = some j' ∧
      s'.publisher.subscriptions[j']? = some sub' ∧ sub'.request = sub.request ∧
      Paced (intervalUs interval) sub.notedAt ((e.issuedFor j).map (·.notification.stamp))
        sub'.notedAt := by
  obtain ⟨⟨outcome, after⟩, hperform, h⟩ := bind_eq_ok.mp h
  cases h
  cases call with
  | register start count reader =>
    cases hperform
    exact .inr ⟨j, sub, rfl, hsub, rfl, .nil le_rfl⟩
  | accept request =>
    obtain ⟨rfl, hsubs, -, -, -⟩ := perform_accept hperform
    refine .inr ⟨j, sub, rfl, ?_, rfl, .nil le_rfl⟩
    rw [hsubs, List.getElem?_append_left (List.getElem?_eq_some_iff.mp hsub).1]
    exact hsub
  | remove id =>
    obtain ⟨result, rfl, -, hsubs, -, -, -⟩ := perform_remove hperform
    by_cases hid : sub.id = id
    · refine .inl ⟨?_, rfl⟩
      simp [PublisherEvent.follow, hsub, hid]
    · refine .inr ⟨(s.publisher.subscriptions.take j).countP (·.id ≠ id), sub, ?_, ?_, rfl,
        .nil le_rfl⟩
      · simp only [PublisherEvent.follow, hsub, Option.any_some, hid, decide_false,
          Bool.false_eq_true, if_false]
      · rw [hsubs]
        exact filter_at hsub (decide_eq_true hid)
  | scan =>
    obtain ⟨log, rfl, hscan⟩ := perform_scan hperform
    obtain ⟨sub', hsub', -, hrequest, hpaced⟩ := scan_paced hW hscan hsub hperiodic
    exact .inr ⟨j, sub', rfl, hsub', hrequest, hpaced⟩

theorem run_paced {calls : List (PublisherCall τ)} {events : List (PublisherEvent τ)}
    {last : Publishing τ} (hsub : s.publisher.subscriptions[j]? = some sub)
    (hperiodic : Periodic interval sub.request)
    (hrun : runAll (step W) calls s = .ok (events, last)) :
    ∃ b, Paced (intervalUs interval) sub.notedAt
      ((notificationsOf j events).map EventNotification.stamp) b := by
  induction calls generalizing s j sub events with
  | nil =>
    cases hrun
    exact ⟨sub.notedAt, .nil le_rfl⟩
  | cons call calls ih =>
    obtain ⟨e, s₁, events', hfirst, hothers, rfl⟩ := runAll_cons.mp hrun
    rcases step_paced hW hsub hperiodic hfirst with ⟨hfollow, hnothing⟩ |
      ⟨j', sub', hfollow, hsub', hrequest, hpaced⟩
    · refine ⟨sub.notedAt, ?_⟩
      rw [notificationsOf, hfollow, hnothing]
      exact .nil le_rfl
    · obtain ⟨b, hrest⟩ := ih hsub' (hrequest ▸ hperiodic) hothers
      refine ⟨b, ?_⟩
      rw [notificationsOf, hfollow, Option.toList_some, List.flatMap_singleton, List.map_append,
        List.map_map]
      exact hpaced.trans hrest

end Forward

/-- A world whose clock goes on by 400 microseconds whenever it is read, up to a point. -/
def ticking : World ℕ where
  send _ n := .ok (.ok, n)
  receive _ n := .ok (.fail .timeoutExpired, n)
  isConnected _ := true
  now n := (⟨Int64.ofNat (min n 1000000)⟩, n + 400)

theorem ticking_forward : ticking.Forward fun n => (min n 1000000 : ℕ) where
  now_ge n := by
    change ((min n 1000000 : ℕ) : ℤ) ≤ (Int64.ofNat (min n 1000000)).toInt
    rw [Int64.toInt_ofNat_of_lt (by omega)]
  after_now n := by
    change (Int64.ofNat (min n 1000000)).toInt ≤ ((min (n + 400) 1000000 : ℕ) : ℤ)
    rw [Int64.toInt_ofNat_of_lt (by omega)]
    omega
  send := by
    rintro frame n result n' ⟨⟩
    exact le_rfl

/-- One register, told every millisecond. -/
def everyMillisecond : SubscriptionRequest := { trigger := .periodic, interval := some 1 }

end Publisher

end ModbusPp

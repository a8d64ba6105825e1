import ModbusPp.PubSub.Scan

/-! Runs of a publisher: any sequence of calls over any world. Ids are handed out in
order, so as long as they do not wrap no two subscriptions have the same one, and one
that was removed does not come back. -/

namespace ModbusPp

open Foundation

inductive PublisherCall (τ : Type)
  | register (start count : UInt16) (reader : τ → Checked (List UInt16 × τ))
  | accept (request : SubscriptionRequest)
  | remove (id : SubscriptionID)
  | scan

inductive PublisherOutcome
  | registered
  | accepted (id : Result SubscriptionID)
  | removed (result : VoidResult)
  | scanned (log : List (List (Option Issued)))

/-- A call that returned, between the states before and after it. -/
structure PublisherEvent (τ : Type) where
  call : PublisherCall τ
  outcome : PublisherOutcome
  before : Publishing τ
  after : Publishing τ

variable {τ : Type}

/-- What a call issued. -/
def PublisherOutcome.issued : PublisherOutcome → List EventNotification
  | .scanned log => issuedIn log
  | _ => []

def PublisherCall.isAccept : PublisherCall τ → Bool
  | .accept _ => true
  | _ => false

/-- The ids of the active subscriptions. -/
def Publishing.ids (s : Publishing τ) : List SubscriptionID :=
  s.publisher.subscriptions.map ActiveSubscription.id

namespace Publisher

variable (W : World τ)

def perform (call : PublisherCall τ) (s : Publishing τ) :
    Checked (PublisherOutcome × Publishing τ) :=
  match call with
  | .register start count reader =>
      .ok (.registered, { s with publisher := s.publisher.registerDataSource start count reader })
  | .accept request =>
    let (id, s) := acceptSubscription W request s
    .ok (.accepted id, s)
  | .remove id =>
    let (result, publisher) := s.publisher.removeSubscription id
    .ok (.removed result, { s with publisher })
  | .scan => do
    let (log, s) ← scanAndNotify W s
    return (.scanned log, s)

/-- Make a call. -/
def step (call : PublisherCall τ) (s : Publishing τ) :
    Checked (PublisherEvent τ × Publishing τ) := do
  let (outcome, after) ← perform W call s
  return (⟨call, outcome, s, after⟩, after)

variable {W} {s s' : Publishing τ} {e : PublisherEvent τ} {call : PublisherCall τ}

theorem step_event (h : step W call s = .ok (e, s')) :
    e.call = call ∧ e.before = s ∧ e.after = s' ∧ perform W call s = .ok (e.outcome, s') := by
  obtain ⟨⟨outcome, after⟩, hperform, h⟩ := bind_eq_ok.mp h
  cases h
  exact ⟨rfl, rfl, rfl, hperform⟩

/-! ### What the calls do to the ids -/

/-- A turn leaves the subscription's id and request, and issues under its id. -/
theorem Turn.facts {source : DataSource τ} {current : List UInt16}
    {sub sub' : ActiveSubscription} {net net' : τ} {issued : Option Issued}
    (h : Turn W source current sub net issued sub' net') :
    sub'.id = sub.id ∧ sub'.request = sub.request ∧
      ∀ i, issued = some i → i.notification.subscriptionId = sub.id := by
  cases h with
  | uncovered hcovers => exact ⟨rfl, rfl, fun _ hi => by cases hi⟩
  | quiet hcovers hslice hprev hnotify => exact ⟨rfl, rfl, fun _ hi => by cases hi⟩
  | told hcovers hslice hprev hnotify hpush =>
    refine ⟨rfl, rfl, ?_⟩
    rintro _ ⟨⟩
    rfl

theorem scanSource_ids {source source' : DataSource τ}
    {subs subs' : List ActiveSubscription} {net net' : τ} {row : List (Option Issued)}
    (h : scanSource W source (subs, net) = .ok ((row, source'), subs', net')) :
    subs'.map ActiveSubscription.id = subs.map ActiveSubscription.id ∧
      ∀ issued ∈ row, ∀ i, issued = some i → i.notification.subscriptionId ∈
        subs.map ActiveSubscription.id := by
  obtain ⟨-, current, net₁, outs, -, -, rfl, rfl, hall⟩ :=
    scanSource_turns (fun _ => True) (fun _ _ _ => trivial) (fun _ _ _ _ _ _ _ _ => trivial) h
  constructor
  · rw [List.map_map]
    refine map_eq_of_forall₂ hall ?_
    rintro sub out ⟨n, n', -, hturn⟩
    exact hturn.facts.1
  · intro issued hmem i hi
    obtain ⟨out, hout, rfl⟩ := List.mem_map.mp hmem
    obtain ⟨k, hk⟩ := List.mem_iff_getElem?.mp hout
    obtain ⟨sub, hsub, n, n', -, hturn⟩ := forall₂_at hall.flip hk
    rw [hturn.facts.2.2 i hi]
    exact List.mem_map_of_mem (List.mem_of_getElem? hsub)

theorem scan_ids {log : List (List (Option Issued))} (h : scanAndNotify W s = .ok (log, s')) :
    s'.ids = s.ids ∧ s'.publisher.nextSubId = s.publisher.nextSubId ∧
      ∀ notif ∈ issuedIn log, notif.subscriptionId ∈ s.ids := by
  obtain ⟨⟨outs, subs, net⟩, hsources, h⟩ := bind_eq_ok.mp h
  cases h
  obtain ⟨hsame, hall⟩ := runAll_forall₂
    (fun p : List ActiveSubscription × τ => p.1.map ActiveSubscription.id = s.ids)
    (fun source p out p' hp hone => (scanSource_ids hone).1.trans hp)
      s.publisher.sources rfl hsources
  refine ⟨hsame, rfl, ?_⟩
  intro notif hnotif
  obtain ⟨row, hrow, hnotif⟩ := List.mem_flatMap.mp hnotif
  obtain ⟨issued, hissued, hnotif⟩ := List.mem_flatMap.mp hnotif
  obtain ⟨out, hout, rfl⟩ := List.mem_map.mp hrow
  obtain ⟨k, hk⟩ := List.mem_iff_getElem?.mp hout
  obtain ⟨source, -, p, p', hp, hone⟩ := forall₂_at hall.flip hk
  rw [← hp]
  cases issued with
  | none => cases hnotif
  | some i =>
    rw [Option.toList_some, List.map_singleton, List.mem_singleton] at hnotif
    rw [hnotif]
    exact (scanSource_ids hone).2 _ hissued i rfl

/-- After `n` acceptances: the ids in use are among the first `n`, each in use once. -/
structure Numbered (n : ℕ) (s : Publishing τ) : Prop where
  next : s.publisher.nextSubId = UInt32.ofNat (n + 1)
  used : ∀ id ∈ s.ids, 1 ≤ id.toNat ∧ id.toNat ≤ n
  distinct : s.ids.Nodup

/-- The id was handed out, and is in use no more. -/
def Retired (id : SubscriptionID) (n : ℕ) (s : Publishing τ) : Prop := id.toNat ≤ n ∧ id ∉ s.ids

theorem Numbered.next_toNat {n : ℕ} (h : Numbered n s) (hfew : n + 1 < 2 ^ 32) :
    s.publisher.nextSubId.toNat = n + 1 := by
  rw [h.next, UInt32.toNat_ofNat', Nat.mod_eq_of_lt hfew]

theorem Numbered.next_fresh {n : ℕ} (h : Numbered n s) (hfew : n + 1 < 2 ^ 32) :
    s.publisher.nextSubId ∉ s.ids := by
  intro hmem
  have hused := h.used _ hmem
  rw [h.next_toNat hfew] at hused
  omega

theorem perform_accept {request : SubscriptionRequest} {outcome : PublisherOutcome}
    (h : perform W (.accept request) s = .ok (outcome, s')) :
    outcome = .accepted (.value s.publisher.nextSubId) ∧
      s'.publisher.subscriptions = s.publisher.subscriptions ++
        [⟨s.publisher.nextSubId, request, (W.now s.net).1⟩] ∧
      s'.publisher.nextSubId = s.publisher.nextSubId + 1 ∧
      s'.publisher.sources = s.publisher.sources ∧
      s'.net = (W.now s.net).2 := by
  cases h
  exact ⟨rfl, rfl, rfl, rfl, rfl⟩

/-- `remove_subscription` succeeds for the ids in use, and filters the list. -/
theorem perform_remove {id : SubscriptionID} {outcome : PublisherOutcome}
    (h : perform W (.remove id) s = .ok (outcome, s')) :
    ∃ result, outcome = .removed result ∧ (result.hasValue = true ↔ id ∈ s.ids) ∧
      s'.publisher.subscriptions = s.publisher.subscriptions.filter (·.id ≠ id) ∧
      s'.publisher.nextSubId = s.publisher.nextSubId ∧ s'.publisher.sources = s.publisher.sources ∧
      s'.net = s.net := by
  have hiff :
      (s.publisher.subscriptions.filter (·.id ≠ id)).length = s.publisher.subscriptions.length ↔
        id ∉ s.ids := by
    rw [List.length_filter_eq_length_iff]
    constructor
    · intro hall hmem
      obtain ⟨sub, hsub, rfl⟩ := List.mem_map.mp hmem
      simpa using hall sub hsub
    · intro hno sub hsub
      simpa using fun heq : sub.id = id => hno (heq ▸ List.mem_map_of_mem hsub)
  simp only [perform, removeSubscription] at h
  split_ifs at h with hlen
  · cases h
    have hfailed : ¬(VoidResult.fail .illegalDataAddress).hasValue = true := by decide
    refine ⟨_, rfl, iff_of_false hfailed (hiff.mp hlen), ?_, rfl, rfl, rfl⟩
    exact (List.filter_eq_self.mpr (List.length_filter_eq_length_iff.mp hlen)).symm
  · cases h
    exact ⟨_, rfl, iff_of_true rfl (not_not.mp (mt hiff.mpr hlen)), rfl, rfl, rfl, rfl⟩

/-- How many of the calls are acceptances. -/
def accepts (calls : List (PublisherCall τ)) : ℕ := calls.countP PublisherCall.isAccept

theorem perform_numbered {n : ℕ} {outcome : PublisherOutcome} (hs : Numbered n s)
    (hfew : n + accepts [call] < 2 ^ 32) (h : perform W call s = .ok (outcome, s')) :
    Numbered (n + accepts [call]) s' ∧ (∀ id, Retired id n s → Retired id (n + accepts [call]) s') ∧
      ∀ notif ∈ outcome.issued, notif.subscriptionId ∈ s.ids := by
  cases call with
  | register start count reader =>
    cases h
    exact ⟨⟨hs.next, hs.used, hs.distinct⟩, fun _ hid => hid, fun _ hmem => by cases hmem⟩
  | accept request =>
    have hfew : n + 1 < 2 ^ 32 := hfew
    obtain ⟨rfl, hsubs, hnext, -, -⟩ := perform_accept h
    have hids : s'.ids = s.ids ++ [s.publisher.nextSubId] := by
      rw [Publishing.ids, hsubs, List.map_append]
      rfl
    have hfresh := hs.next_fresh hfew
    have htoNat := hs.next_toNat hfew
    refine ⟨⟨?_, ?_, ?_⟩, ?_, fun _ hmem => by cases hmem⟩
    · rw [hnext, hs.next]
      exact (UInt32.ofNat_add (n + 1) 1).symm
    · intro id hid
      rw [hids, List.mem_append, List.mem_singleton] at hid
      rcases hid with hid | rfl
      · have hused := hs.used id hid
        exact ⟨hused.1, hused.2.trans (Nat.le_succ n)⟩
      · rw [htoNat]
        exact ⟨Nat.le_add_left 1 n, Nat.le_refl _⟩
    · rw [hids, List.nodup_append]
      refine ⟨hs.distinct, List.nodup_singleton _, fun a ha b hb => ?_⟩
      rw [List.mem_singleton.mp hb]
      exact fun heq => hfresh (heq ▸ ha)
    · rintro id ⟨hle, hno⟩
      refine ⟨hle.trans (Nat.le_succ n), ?_⟩
      rw [hids, List.mem_append, List.mem_singleton, not_or]
      refine ⟨hno, fun heq => ?_⟩
      rw [heq, htoNat] at hle
      omega
  | remove id =>
    obtain ⟨result, rfl, -, hsubs, hnext, -, -⟩ := perform_remove h
    have hsub : s'.ids.Sublist s.ids := by
      rw [Publishing.ids, hsubs]
      exact List.filter_sublist.map _
    refine ⟨⟨hnext.trans hs.next, fun i hi => hs.used i (hsub.mem hi), hs.distinct.sublist hsub⟩,
      ?_, fun _ hmem => by cases hmem⟩
    exact fun i hi => ⟨hi.1, fun hmem => hi.2 (hsub.mem hmem)⟩
  | scan =>
    obtain ⟨⟨log, s₁⟩, hscan, h⟩ := bind_eq_ok.mp h
    cases h
    obtain ⟨hids, hnext, hissued⟩ := scan_ids hscan
    exact ⟨⟨hnext.trans hs.next, hids ▸ hs.used, hids ▸ hs.distinct⟩,
      fun i hi => ⟨hi.1, hids ▸ hi.2⟩, hissued⟩

/-! ### Whole runs -/

theorem accepts_cons (call : PublisherCall τ) (calls : List (PublisherCall τ)) :
    accepts (call :: calls) = accepts [call] + accepts calls := by
  rw [accepts, ← List.singleton_append, List.countP_append]
  rfl

/-- A run taken apart at one of its calls. -/
theorem run_at {calls : List (PublisherCall τ)} {earlier later : List (PublisherEvent τ)}
    {last : Publishing τ} (hrun : runAll (step W) calls s = .ok (earlier ++ e :: later, last)) :
    ∃ before after, calls = before ++ e.call :: after ∧
      runAll (step W) before s = .ok (earlier, e.before) ∧
      perform W e.call e.before = .ok (e.outcome, e.after) ∧
      runAll (step W) after e.after = .ok (later, last) := by
  obtain ⟨before, others, s₁, rfl, hbefore, hothers⟩ := runAll_split hrun
  cases others with
  | nil => cases hothers
  | cons call after =>
    obtain ⟨e', s₂, later', hone, hafter, heq⟩ := runAll_cons.mp hothers
    cases heq
    obtain ⟨rfl, rfl, rfl, hperform⟩ := step_event hone
    exact ⟨before, after, rfl, hbefore, hperform, hafter⟩

/-- The events of a run are those of its calls. -/
theorem run_calls {calls : List (PublisherCall τ)} {events : List (PublisherEvent τ)}
    {last : Publishing τ} (hrun : runAll (step W) calls s = .ok (events, last)) :
    events.map PublisherEvent.call = calls := by
  induction calls generalizing s events with
  | nil =>
    cases hrun
    rfl
  | cons call calls ih =>
    obtain ⟨e, s₁, events', hfirst, hothers, rfl⟩ := runAll_cons.mp hrun
    rw [List.map_cons, (step_event hfirst).1, ih hothers]

/-- Every call of a run is made in a numbered state. -/
theorem run_numbered {n : ℕ} {calls : List (PublisherCall τ)}
    {events : List (PublisherEvent τ)} {last : Publishing τ}
    (hs : Numbered n s) (hfew : n + accepts calls < 2 ^ 32)
    (hrun : runAll (step W) calls s = .ok (events, last)) :
    Numbered (n + accepts calls) last ∧
    ∀ e ∈ events, perform W e.call e.before = .ok (e.outcome, e.after) ∧
      e.before.ids.Nodup ∧ e.after.ids.Nodup := by
  induction calls generalizing n s events with
  | nil =>
    cases hrun
    exact ⟨hs, List.forall_mem_nil _⟩
  | cons call calls ih =>
    obtain ⟨e, s₁, events', hfirst, hothers, rfl⟩ := runAll_cons.mp hrun
    rw [accepts_cons, ← Nat.add_assoc] at hfew ⊢
    obtain ⟨rfl, rfl, rfl, hperform⟩ := step_event hfirst
    have hs₁ := (perform_numbered hs (by omega) hperform).1
    obtain ⟨hlast, hall⟩ := ih hs₁ hfew hothers
    exact ⟨hlast, List.forall_mem_cons.mpr ⟨⟨hperform, hs.distinct, hs₁.distinct⟩, hall⟩⟩

theorem run_retired {n : ℕ} {calls : List (PublisherCall τ)}
    {events : List (PublisherEvent τ)} {last : Publishing τ}
    {id : SubscriptionID} (hs : Numbered n s) (hid : Retired id n s)
    (hfew : n + accepts calls < 2 ^ 32) (hrun : runAll (step W) calls s = .ok (events, last)) :
    ∀ e ∈ events, ∀ notif ∈ e.outcome.issued, notif.subscriptionId ≠ id := by
  induction calls generalizing n s events with
  | nil =>
    cases hrun
    exact List.forall_mem_nil _
  | cons call calls ih =>
    obtain ⟨e, s₁, events', hfirst, hothers, rfl⟩ := runAll_cons.mp hrun
    rw [accepts_cons, ← Nat.add_assoc] at hfew
    obtain ⟨rfl, rfl, rfl, hperform⟩ := step_event hfirst
    obtain ⟨hs₁, hretired, hissued⟩ := perform_numbered hs (by omega) hperform
    refine List.forall_mem_cons.mpr ⟨?_, ih hs₁ (hretired id hid) hfew hothers⟩
    rintro notif hnotif rfl
    exact hid.2 (hissued notif hnotif)

theorem numbered_start (p : Publisher τ) (hsubs : p.subscriptions = [])
    (hnext : p.nextSubId = 1) (net : τ) :
    Numbered 0 ⟨p, net⟩ where
  next := hnext
  used := by
    intro id hid
    rw [Publishing.ids, hsubs] at hid
    cases hid
  distinct := by
    rw [Publishing.ids, hsubs]
    exact List.nodup_nil

/-- After a removal nothing is issued under the removed id. -/
theorem removed_silent {n : ℕ} {calls : List (PublisherCall τ)}
    {earlier later : List (PublisherEvent τ)} {last : Publishing τ}
    {id : SubscriptionID} (hs : Numbered n s) (hfew : n + accepts calls < 2 ^ 32)
    (hrun : runAll (step W) calls s = .ok (earlier ++ e :: later, last))
    (hcall : e.call = .remove id) (hactive : id ∈ e.before.ids) :
    ∀ e' ∈ later, ∀ notif ∈ e'.outcome.issued, notif.subscriptionId ≠ id := by
  obtain ⟨js, ks, rfl, hfirst, hperform, hothers⟩ := run_at hrun
  have hcount : accepts (js ++ e.call :: ks) = accepts js + (accepts [e.call] + accepts ks) :=
    List.countP_append.trans (congrArg (accepts js + ·) (accepts_cons e.call ks))
  rw [hcount, ← Nat.add_assoc, ← Nat.add_assoc] at hfew
  have hs₁ := (run_numbered hs (by omega) hfirst).1
  obtain ⟨hs₂, -, -⟩ := perform_numbered hs₁ (by omega) hperform
  have hused := hs₁.used id hactive
  rw [hcall] at hperform
  obtain ⟨result, -, -, hsubs, -, -, -⟩ := perform_remove hperform
  have hgone : id ∉ e.after.ids := by
    rw [Publishing.ids, hsubs]
    intro hmem
    obtain ⟨sub, hsub, heq⟩ := List.mem_map.mp hmem
    simpa [heq] using (List.mem_filter.mp hsub).2
  exact run_retired hs₂ ⟨by omega, hgone⟩ hfew hothers

end Publisher

end ModbusPp

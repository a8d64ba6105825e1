import ModbusPp.Foundation.Noninterference
import ModbusPp.PubSub.PublisherRuns
import ModbusPp.Transport.Traced

/-! Subscriptions do not interfere. In a world in which every call comes with one clock
reading, and every scan with what the sources will return, a subscription is told the
same whatever other subscriptions are accepted or removed beside it. -/

namespace ModbusPp

open Foundation

variable {σ : Type}

/-- A call's clock reading, what is still to be read from the sources, and the state of
the transport. -/
structure Moment (σ : Type) where
  clock : Timestamp
  readings : List (List UInt16) := []
  net : σ

namespace Moment

def world (T : Transport σ) (isConnected : σ → Bool) : World (Moment σ) where
  send frame m := do
    let (sent, net) ← T.send frame m.net
    return (sent, { m with net })
  receive timeout m := do
    let (received, net) ← T.receive timeout m.net
    return (received, { m with net })
  isConnected m := isConnected m.net
  now m := (m.clock, m)

/-- The reader of every source. -/
def read (m : Moment σ) : Checked (List UInt16 × Moment σ) :=
  .ok (m.readings.headD [], { m with readings := m.readings.tail })

end Moment

/-- A call with the readings that it makes. -/
inductive TimedCall
  | register (start count : UInt16)
  | accept (clock : Timestamp) (request : SubscriptionRequest)
  | remove (id : SubscriptionID)
  | scan (clock : Timestamp) (readings : List (List UInt16))
  deriving DecidableEq

namespace TimedCall

def call : TimedCall → PublisherCall (Moment σ)
  | register start count => .register start count Moment.read
  | accept _ request => .accept request
  | remove id => .remove id
  | scan _ _ => .scan

/-- The world at the time of the call. -/
def moment (call : TimedCall) (m : Moment σ) : Moment σ :=
  match call with
  | accept clock _ => { m with clock }
  | register _ _ | remove _ => m
  | scan clock readings => { m with clock, readings }

/-- What runs that differ in their subscriptions have in common. -/
def common : TimedCall → Option TimedCall
  | accept _ _ | remove _ => none
  | call => some call

theorem common_eq {call common : TimedCall} (h : call.common = some common) : call = common := by
  cases call with
  | register start count =>
    cases h
    rfl
  | scan clock readings =>
    cases h
    rfl
  | accept clock request => cases h
  | remove id => cases h

end TimedCall

namespace Publisher

variable (T : Transport σ) (isConnected : σ → Bool)

def timedStep (call : TimedCall) (s : Publishing (Moment σ)) :
    Checked (PublisherEvent (Moment σ) × Publishing (Moment σ)) :=
  step (Moment.world T isConnected) call.call { s with net := call.moment s.net }

/-- All that a scan depends on of a subscription, apart from its id. -/
def entry (id : SubscriptionID) (subs : List ActiveSubscription) :
    Option (SubscriptionRequest × Timestamp) :=
  (subs.find? (·.id = id)).map fun sub => (sub.request, sub.lastNotified)

/-- A notification without the id it was issued under. -/
def anonymous (notif : EventNotification) : EventNotification := { notif with subscriptionId := 0 }

/-- What is issued under an id. -/
def own (id : SubscriptionID) (notifs : List EventNotification) : List EventNotification :=
  (notifs.filter (·.subscriptionId = id)).map anonymous

variable {T} {isConnected} {source : DataSource (Moment σ)} {current : List UInt16}
  {sub sub' sub₁ sub₂ sub₁' sub₂' : ActiveSubscription} {m m' m₁ m₂ m₁' m₂' : Moment σ}
  {issued issued₁ issued₂ : Option Issued}

theorem shouldNotify_moment {current previous : List UInt16} {notify : Bool}
    (h : shouldNotify (Moment.world T isConnected) sub current previous m = .ok (notify, m')) :
    m' = m := by
  rcases shouldNotify_net h with rfl | rfl
  · rfl
  · rfl

theorem push_moment {notif : EventNotification} {delivered : Bool}
    (h : push (Moment.world T isConnected) notif m = .ok (delivered, m')) :
    m'.clock = m.clock ∧ m'.readings = m.readings := by
  rcases push_cases h with ⟨-, -, rfl⟩ | ⟨sent, -, hsend, -⟩
  · exact ⟨rfl, rfl⟩
  · obtain ⟨⟨sent', net⟩, -, hsend⟩ := bind_eq_ok.mp hsend
    cases hsend
    exact ⟨rfl, rfl⟩

theorem Turn.moment (h : Turn (Moment.world T isConnected) source current sub m issued sub' m') :
    m'.clock = m.clock ∧ m'.readings = m.readings := by
  cases h with
  | uncovered hcovers => exact ⟨rfl, rfl⟩
  | quiet hcovers hslice hprev hnotify =>
    cases shouldNotify_moment hnotify
    exact ⟨rfl, rfl⟩
  | told hcovers hslice hprev hnotify hpush =>
    cases shouldNotify_moment hnotify
    exact push_moment hpush

/-- The decision depends on the request, on the time of the last notification and on
the clock. -/
theorem shouldNotify_agree {current previous : List UInt16} {notify₁ notify₂ : Bool}
    (hrequest : sub₁.request = sub₂.request) (hlast : sub₁.lastNotified = sub₂.lastNotified)
    (hclock : m₁.clock = m₂.clock)
    (h₁ : shouldNotify (Moment.world T isConnected) sub₁ current previous m₁ = .ok (notify₁, m₁'))
    (h₂ : shouldNotify (Moment.world T isConnected) sub₂ current previous m₂ = .ok (notify₂, m₂')) :
    notify₁ = notify₂ := by
  unfold shouldNotify at h₁ h₂
  rw [hrequest] at h₁
  cases htrigger : sub₂.request.trigger with
  | periodic =>
    rw [htrigger] at h₁ h₂
    cases hinterval : sub₂.request.interval with
    | none =>
      rw [hinterval] at h₁ h₂
      cases h₁
      cases h₂
      rfl
    | some interval =>
      simp only [hinterval, Moment.world, hclock, hlast] at h₁ h₂
      obtain ⟨elapsed₁, helapsed₁, h₁⟩ := bind_eq_ok.mp h₁
      obtain ⟨elapsed₂, helapsed₂, h₂⟩ := bind_eq_ok.mp h₂
      obtain ⟨interval₁, hinterval₁, h₁⟩ := bind_eq_ok.mp h₁
      obtain ⟨interval₂, hinterval₂, h₂⟩ := bind_eq_ok.mp h₂
      rw [helapsed₁] at helapsed₂
      rw [hinterval₁] at hinterval₂
      cases helapsed₂
      cases hinterval₂
      cases h₁
      cases h₂
      rfl
  | onChange =>
    rw [htrigger] at h₁ h₂
    cases h₁
    cases h₂
    rfl
  | onThreshold =>
    rw [htrigger] at h₁ h₂
    cases h₁
    cases h₂
    rfl

/-- Turns of one source on the same terms issue the same. -/
theorem Turn.agree (hrequest : sub₁.request = sub₂.request)
    (hlast : sub₁.lastNotified = sub₂.lastNotified) (hclock : m₁.clock = m₂.clock)
    (h₁ : Turn (Moment.world T isConnected) source current sub₁ m₁ issued₁ sub₁' m₁')
    (h₂ : Turn (Moment.world T isConnected) source current sub₂ m₂ issued₂ sub₂' m₂') :
    issued₁.map (anonymous ·.notification) = issued₂.map (anonymous ·.notification) ∧
      sub₁'.lastNotified = sub₂'.lastNotified := by
  cases h₁ with
  | uncovered hcovers₁ =>
    rw [hrequest] at hcovers₁
    cases h₂ with
    | uncovered hcovers₂ => exact ⟨rfl, hlast⟩
    | quiet hcovers₂ hslice₂ hprev₂ hnotify₂ => exact absurd hcovers₂ hcovers₁
    | told hcovers₂ hslice₂ hprev₂ hnotify₂ hpush₂ => exact absurd hcovers₂ hcovers₁
  | quiet hcovers₁ hslice₁ hprev₁ hnotify₁ =>
    rw [hrequest] at hcovers₁ hslice₁ hprev₁
    cases h₂ with
    | uncovered hcovers₂ => exact absurd hcovers₁ hcovers₂
    | quiet hcovers₂ hslice₂ hprev₂ hnotify₂ => exact ⟨rfl, hlast⟩
    | told hcovers₂ hslice₂ hprev₂ hnotify₂ hpush₂ =>
      cases hslice₁.symm.trans hslice₂
      cases hprev₁.symm.trans hprev₂
      cases shouldNotify_agree hrequest hlast hclock hnotify₁ hnotify₂
  | told hcovers₁ hslice₁ hprev₁ hnotify₁ hpush₁ =>
    rw [hrequest] at hcovers₁ hslice₁ hprev₁
    cases h₂ with
    | uncovered hcovers₂ => exact absurd hcovers₁ hcovers₂
    | quiet hcovers₂ hslice₂ hprev₂ hnotify₂ =>
      cases hslice₁.symm.trans hslice₂
      cases hprev₁.symm.trans hprev₂
      cases shouldNotify_agree hrequest hlast hclock hnotify₁ hnotify₂
    | told hcovers₂ hslice₂ hprev₂ hnotify₂ hpush₂ =>
      cases hslice₁.symm.trans hslice₂
      cases hprev₁.symm.trans hprev₂
      cases shouldNotify_moment hnotify₁
      cases shouldNotify_moment hnotify₂
      -- the clock is read after the decision and again after the push
      have hnow₁ := (push_moment hpush₁).1
      have hnow₂ := (push_moment hpush₂).1
      refine ⟨?_, ?_⟩
      · simp only [Option.map_some, anonymous, hrequest, Moment.world, hclock]
      · simp only [Moment.world] at hnow₁ hnow₂ ⊢
        rw [hnow₁, hnow₂, hclock]

/-! ### One scan -/

/-- What the turns of a source issued. -/
def turnsIssued (outs : List (Option Issued × ActiveSubscription)) : List EventNotification :=
  (outs.map Prod.fst).flatMap fun issued => issued.toList.map Issued.notification

theorem own_append (id : SubscriptionID) (notifs notifs' : List EventNotification) :
    own id (notifs ++ notifs') = own id notifs ++ own id notifs' := by
  rw [own, List.filter_append, List.map_append, own, own]

theorem own_turns_none {R : ActiveSubscription → Option Issued × ActiveSubscription → Prop}
    (hissued : ∀ sub out, R sub out → ∀ i, out.1 = some i → i.notification.subscriptionId = sub.id)
    {subs : List ActiveSubscription} {outs : List (Option Issued × ActiveSubscription)}
    (hall : List.Forall₂ R subs outs) {id : SubscriptionID}
    (hno : id ∉ subs.map ActiveSubscription.id) : own id (turnsIssued outs) = [] := by
  have hfilter : (turnsIssued outs).filter (·.subscriptionId = id) = [] := by
    rw [List.filter_eq_nil_iff]
    intro notif hmem
    obtain ⟨issued, hissuedMem, hmem⟩ := List.mem_flatMap.mp hmem
    obtain ⟨out, hout, rfl⟩ := List.mem_map.mp hissuedMem
    obtain ⟨i, hi, rfl⟩ := List.mem_map.mp hmem
    obtain ⟨k, hk⟩ := List.mem_iff_getElem?.mp hout
    obtain ⟨sub, hsub, hR⟩ := forall₂_at hall.flip hk
    have hid := hissued sub out hR i (Option.mem_toList.mp hi)
    intro heq
    rw [decide_eq_true_eq] at heq
    exact hno (heq ▸ hid ▸ List.mem_map_of_mem (List.mem_of_getElem? hsub))
  rw [own, hfilter, List.map_nil]

/-- Under distinct ids, what is issued under an id comes from the turn of its subscription. -/
theorem own_turns {R : ActiveSubscription → Option Issued × ActiveSubscription → Prop}
    (hid : ∀ sub out, R sub out → out.2.id = sub.id)
    (hissued : ∀ sub out, R sub out → ∀ i, out.1 = some i → i.notification.subscriptionId = sub.id)
    {subs : List ActiveSubscription} {outs : List (Option Issued × ActiveSubscription)}
    (hall : List.Forall₂ R subs outs) (hdistinct : (subs.map ActiveSubscription.id).Nodup)
    {id : SubscriptionID} (hfind : subs.find? (·.id = id) = some sub) :
    ∃ out, R sub out ∧ (outs.map Prod.snd).find? (·.id = id) = some out.2 ∧
      own id (turnsIssued outs) = (out.1.map (anonymous ·.notification)).toList := by
  induction hall with
  | nil => cases hfind
  | @cons a out subs outs hR hall ih =>
    rw [List.map_cons, List.nodup_cons] at hdistinct
    have hsplit :
      turnsIssued (out :: outs) = out.1.toList.map Issued.notification ++ turnsIssued outs := rfl
    rw [hsplit, own_append, List.map_cons]
    by_cases ha : a.id = id
    · rw [List.find?_cons_of_pos (by simpa using ha), Option.some.injEq] at hfind
      subst hfind
      refine ⟨out, hR, List.find?_cons_of_pos (by simpa using (hid a out hR).trans ha), ?_⟩
      rw [own_turns_none hissued hall (ha ▸ hdistinct.1), List.append_nil]
      cases hout : out.1 with
      | none => rfl
      | some i =>
        have hmine : i.notification.subscriptionId = id := (hissued a out hR i hout).trans ha
        simp [own, hmine]
    · rw [List.find?_cons_of_neg (by simpa using ha)] at hfind
      obtain ⟨out', hR', hfind', hown⟩ := ih hdistinct.2 hfind
      refine ⟨out', hR', ?_, ?_⟩
      · rw [List.find?_cons_of_neg (by simpa using fun h => ha ((hid a out hR).symm.trans h)),
          hfind']
      · rw [hown]
        cases hout : out.1 with
        | none => rfl
        | some i =>
          have hother : i.notification.subscriptionId ≠ id :=
            fun h => ha ((hissued a out hR i hout).symm.trans h)
          simp [own, hother]

/-- Two states in which a scan looks the same to the subscriptions `id₁` and `id₂`. -/
structure Alike (id₁ id₂ : SubscriptionID) (p₁ p₂ : List ActiveSubscription × Moment σ) : Prop where
  clock : p₁.2.clock = p₂.2.clock
  readings : p₁.2.readings = p₂.2.readings
  distinct₁ : (p₁.1.map ActiveSubscription.id).Nodup
  distinct₂ : (p₂.1.map ActiveSubscription.id).Nodup
  same_entry : ∃ e, entry id₁ p₁.1 = some e ∧ entry id₂ p₂.1 = some e

theorem scanSource_moment (hread : source.reader = Moment.read) {source' : DataSource (Moment σ)}
    {subs subs' : List ActiveSubscription} {row : List (Option Issued)}
    (h : scanSource (Moment.world T isConnected) source (subs, m) =
      .ok ((row, source'), subs', m')) :
    (m'.clock = m.clock ∧ m'.readings = m.readings.tail) ∧
    source' = { source with lastValues := m.readings.headD [], hasBaseline := true } ∧
    ∃ outs, row = outs.map Prod.fst ∧ subs' = outs.map Prod.snd ∧
      List.Forall₂ (fun sub out => ∃ n n' : Moment σ, n.clock = m.clock ∧
        Turn (Moment.world T isConnected) source (m.readings.headD []) sub n out.1
          out.2 n') subs outs := by
  obtain ⟨hinv, current, m₁, outs, hcurrent, rfl, hrow, hsubs, hall⟩ :=
    scanSource_turns (fun n : Moment σ => n.clock = m.clock ∧ n.readings = m.readings.tail) (by
      intro current m₁ h₁
      rw [hread] at h₁
      cases h₁
      exact ⟨rfl, rfl⟩) (by
      intro current sub n issued sub' n' hn hturn
      exact ⟨hturn.moment.1.trans hn.1, hturn.moment.2.trans hn.2⟩) h
  rw [hread] at hcurrent
  cases hcurrent
  refine ⟨hinv, rfl, outs, hrow, hsubs, hall.imp ?_⟩
  rintro sub out ⟨n, n', hn, hturn⟩
  exact ⟨n, n', hn.1, hturn⟩

theorem scanSource_agree (hread : source.reader = Moment.read) {id₁ id₂ : SubscriptionID}
    {p₁ p₂ p₁' p₂' : List ActiveSubscription × Moment σ}
    {out₁ out₂ : List (Option Issued) × DataSource (Moment σ)}
    (halike : Alike id₁ id₂ p₁ p₂)
    (h₁ : scanSource (Moment.world T isConnected) source p₁ = .ok (out₁, p₁'))
    (h₂ : scanSource (Moment.world T isConnected) source p₂ = .ok (out₂, p₂')) :
    Alike id₁ id₂ p₁' p₂' ∧
      own id₁ (out₁.1.flatMap fun issued => issued.toList.map Issued.notification) =
        own id₂ (out₂.1.flatMap fun issued => issued.toList.map Issued.notification) := by
  obtain ⟨subs₁, m₁⟩ := p₁
  obtain ⟨subs₂, m₂⟩ := p₂
  obtain ⟨hclock, hreadings, hdistinct₁, hdistinct₂, e, hentry₁, hentry₂⟩ := halike
  obtain ⟨⟨hclock₁, hrest₁⟩, -, outs₁, hrow₁, hsubs₁, hall₁⟩ := scanSource_moment hread h₁
  obtain ⟨⟨hclock₂, hrest₂⟩, -, outs₂, hrow₂, hsubs₂, hall₂⟩ := scanSource_moment hread h₂
  obtain ⟨sub₁, hfind₁, hkey₁⟩ := Option.map_eq_some_iff.mp hentry₁
  obtain ⟨sub₂, hfind₂, hkey₂⟩ := Option.map_eq_some_iff.mp hentry₂
  have hids₁ := (scanSource_ids h₁).1
  have hids₂ := (scanSource_ids h₂).1
  simp only at hclock hreadings
  obtain ⟨o₁, ⟨n₁, n₁', hn₁, hturn₁⟩, hnext₁, hown₁⟩ :=
    own_turns (fun sub out ⟨_, _, _, h⟩ => h.facts.1)
    (fun sub out ⟨_, _, _, h⟩ => h.facts.2.2) hall₁ hdistinct₁ hfind₁
  obtain ⟨o₂, ⟨n₂, n₂', hn₂, hturn₂⟩, hnext₂, hown₂⟩ :=
    own_turns (fun sub out ⟨_, _, _, h⟩ => h.facts.1)
    (fun sub out ⟨_, _, _, h⟩ => h.facts.2.2) hall₂ hdistinct₂ hfind₂
  rw [← hkey₁, Prod.mk.injEq] at hkey₂
  rw [← hreadings] at hturn₂
  obtain ⟨hissued, hlast⟩ :=
    Turn.agree hkey₂.1.symm hkey₂.2.symm (hn₁.trans (hclock.trans hn₂.symm)) hturn₁ hturn₂
  refine ⟨⟨?_, ?_, ?_, ?_, ?_⟩, ?_⟩
  · rw [hclock₁, hclock₂, hclock]
  · rw [hrest₁, hrest₂, hreadings]
  · rwa [hids₁]
  · rwa [hids₂]
  · refine ⟨(o₁.2.request, o₁.2.lastNotified), ?_, ?_⟩
    · rw [entry, hsubs₁, hnext₁, Option.map_some]
    · rw [entry, hsubs₂, hnext₂, Option.map_some, hlast, hturn₁.facts.2.1,
        hturn₂.facts.2.1, hkey₂.1]
  · rw [hrow₁, hrow₂]
    exact hown₁.trans ((congrArg Option.toList hissued).trans hown₂.symm)

theorem scanSources_agree {id₁ id₂ : SubscriptionID} {sources : List (DataSource (Moment σ))}
    (hread : ∀ source ∈ sources, source.reader = Moment.read)
    {p₁ p₂ p₁' p₂' : List ActiveSubscription × Moment σ}
    {outs₁ outs₂ : List (List (Option Issued) × DataSource (Moment σ))}
    (halike : Alike id₁ id₂ p₁ p₂)
    (h₁ : runAll (scanSource (Moment.world T isConnected)) sources p₁ = .ok (outs₁, p₁'))
    (h₂ : runAll (scanSource (Moment.world T isConnected)) sources p₂ = .ok (outs₂, p₂')) :
    Alike id₁ id₂ p₁' p₂' ∧
    own id₁ (issuedIn (outs₁.map Prod.fst)) = own id₂ (issuedIn (outs₂.map Prod.fst)) := by
  induction sources generalizing p₁ p₂ outs₁ outs₂ with
  | nil =>
    cases h₁
    cases h₂
    exact ⟨halike, rfl⟩
  | cons source sources ih =>
    obtain ⟨o₁, q₁, rest₁, hfirst₁, hothers₁, rfl⟩ := runAll_cons.mp h₁
    obtain ⟨o₂, q₂, rest₂, hfirst₂, hothers₂, rfl⟩ := runAll_cons.mp h₂
    obtain ⟨halike', hown⟩ :=
      scanSource_agree (hread source List.mem_cons_self) halike hfirst₁ hfirst₂
    obtain ⟨halike'', howns⟩ :=
      ih (fun s hs => hread s (List.mem_cons_of_mem source hs)) halike' hothers₁ hothers₂
    refine ⟨halike'', ?_⟩
    simp only [List.map_cons, issuedIn, List.flatMap_cons, own_append] at howns ⊢
    rw [hown, howns]

/-- The sources after a scan that has read `readings`. -/
def refreshed : List (DataSource (Moment σ)) → List (List UInt16) → List (DataSource (Moment σ))
  | [], _ => []
  | source :: sources, readings =>
    { source with lastValues := readings.headD [], hasBaseline := true } ::
      refreshed sources readings.tail

theorem scanSources_refreshed {sources : List (DataSource (Moment σ))}
    (hread : ∀ source ∈ sources, source.reader = Moment.read)
    {p p' : List ActiveSubscription × Moment σ}
    {outs : List (List (Option Issued) × DataSource (Moment σ))}
    (h : runAll (scanSource (Moment.world T isConnected)) sources p = .ok (outs, p')) :
    outs.map Prod.snd = refreshed sources p.2.readings ∧
      ∀ source ∈ refreshed sources p.2.readings, source.reader = Moment.read := by
  induction sources generalizing p outs with
  | nil =>
    cases h
    exact ⟨rfl, List.forall_mem_nil _⟩
  | cons source sources ih =>
    obtain ⟨o, q, rest, hfirst, hothers, rfl⟩ := runAll_cons.mp h
    have hsource := hread source List.mem_cons_self
    obtain ⟨⟨-, hreadings⟩, hnext, -⟩ := scanSource_moment hsource hfirst
    obtain ⟨hrest, hreaders⟩ := ih (fun s hs => hread s (List.mem_cons_of_mem source hs)) hothers
    rw [hreadings] at hrest hreaders
    rw [refreshed]
    exact ⟨by rw [List.map_cons, hnext, hrest], List.forall_mem_cons.mpr ⟨hsource, hreaders⟩⟩

/-! ### Two runs -/

/-- The sources are the same and read in the same way. -/
def SameSources (s₁ s₂ : Publishing (Moment σ)) : Prop :=
  s₁.publisher.sources = s₂.publisher.sources ∧
  ∀ source ∈ s₁.publisher.sources, source.reader = Moment.read

/-- The subscription `id₁` of one state is the subscription `id₂` of the other. -/
def SameEntry (id₁ id₂ : SubscriptionID) (s₁ s₂ : Publishing (Moment σ)) : Prop :=
  SameSources s₁ s₂ ∧ ∃ e, entry id₁ s₁.publisher.subscriptions = some e ∧
  entry id₂ s₂.publisher.subscriptions = some e

/-- Ids are distinct, and the call does not remove this one. -/
def Spares (id : SubscriptionID) (call : TimedCall) (s : Publishing (Moment σ)) : Prop :=
  s.ids.Nodup ∧ call ≠ .remove id

variable {s s' s₁ s₁' s₂ s₂' : Publishing (Moment σ)}
  {e e₁ e₂ : PublisherEvent (Moment σ)} {call : TimedCall}

theorem timedStep_hidden (hhidden : call.common = none)
    (h : timedStep T isConnected call s = .ok (e, s')) :
    s'.publisher.sources = s.publisher.sources ∧ e.outcome.issued = [] ∧
      ∀ id entry', call ≠ .remove id → entry id s.publisher.subscriptions = some entry' →
        entry id s'.publisher.subscriptions = some entry' := by
  obtain ⟨-, -, -, hperform⟩ := step_event h
  cases call with
  | accept clock request =>
    obtain ⟨houtcome, hsubs, -, hsources, -⟩ := perform_accept hperform
    refine ⟨hsources, by rw [houtcome]; rfl, ?_⟩
    rintro id entry' - hentry
    obtain ⟨sub, hfind, rfl⟩ := Option.map_eq_some_iff.mp hentry
    rw [entry, hsubs, List.find?_append, hfind]
    rfl
  | remove id =>
    obtain ⟨result, houtcome, -, hsubs, -, hsources, -⟩ := perform_remove hperform
    refine ⟨hsources, by rw [houtcome]; rfl, ?_⟩
    intro id' entry' hne hentry
    have hother : id' ≠ id := fun heq => hne (heq ▸ rfl)
    have hsame : (fun sub : ActiveSubscription =>
      decide (decide (sub.id ≠ id) = true ∧ decide (sub.id = id') = true)) =
        fun sub => decide (sub.id = id') := by
      funext sub
      by_cases hsub : sub.id = id'
      · simp [hsub, hother]
      · simp [hsub]
    rw [entry, hsubs, List.find?_filter, hsame]
    exact hentry
  | register start count => cases hhidden
  | scan clock readings => cases hhidden

theorem timedStep_register {start count : UInt16}
    (h : timedStep T isConnected (.register start count) s = .ok (e, s')) :
    s'.publisher.sources = s.publisher.sources ++ [{ start, count, reader := Moment.read }] ∧
      s'.publisher.subscriptions = s.publisher.subscriptions ∧ e.outcome.issued = [] := by
  obtain ⟨-, -, -, hperform⟩ := step_event h
  simp only [TimedCall.call, perform, Except.ok.injEq, Prod.mk.injEq] at hperform
  obtain ⟨houtcome, rfl⟩ := hperform
  exact ⟨rfl, rfl, by rw [← houtcome]; rfl⟩

theorem timedStep_scan {clock : Timestamp} {readings : List (List UInt16)}
    (h : timedStep T isConnected (.scan clock readings) s = .ok (e, s')) :
    ∃ outs net', runAll (scanSource (Moment.world T isConnected)) s.publisher.sources
        (s.publisher.subscriptions, { s.net with clock, readings }) =
          .ok (outs, s'.publisher.subscriptions, net') ∧
      s'.publisher.sources = outs.map Prod.snd ∧
      e.outcome.issued = issuedIn (outs.map Prod.fst) := by
  obtain ⟨-, -, -, hperform⟩ := step_event h
  obtain ⟨⟨log, s₁⟩, hscan, hperform⟩ := bind_eq_ok.mp hperform
  obtain ⟨⟨outs, subs, net⟩, hsources, hscan⟩ := bind_eq_ok.mp hscan
  cases hscan
  simp only [pure_eq_ok, Except.ok.injEq, Prod.mk.injEq] at hperform
  obtain ⟨houtcome, rfl⟩ := hperform
  exact ⟨outs, net, hsources, rfl, by rw [← houtcome]; rfl⟩

theorem SameSources.register {start count : UInt16} (h : SameSources s₁ s₂)
    (h₁ : timedStep T isConnected (.register start count) s₁ = .ok (e₁, s₁'))
    (h₂ : timedStep T isConnected (.register start count) s₂ = .ok (e₂, s₂')) :
    SameSources s₁' s₂' := by
  obtain ⟨hsame, hread⟩ := h
  obtain ⟨hsources₁, -, -⟩ := timedStep_register h₁
  obtain ⟨hsources₂, -, -⟩ := timedStep_register h₂
  refine ⟨by rw [hsources₁, hsources₂, hsame], ?_⟩
  rw [hsources₁]
  exact List.forall_mem_append.mpr ⟨hread, by simp⟩

theorem SameSources.scan {clock : Timestamp} {readings : List (List UInt16)} (h : SameSources s₁ s₂)
    (h₁ : timedStep T isConnected (.scan clock readings) s₁ = .ok (e₁, s₁'))
    (h₂ : timedStep T isConnected (.scan clock readings) s₂ = .ok (e₂, s₂')) :
    SameSources s₁' s₂' := by
  obtain ⟨hsame, hread⟩ := h
  obtain ⟨outs₁, net₁, hrun₁, hsources₁, -⟩ := timedStep_scan h₁
  obtain ⟨outs₂, net₂, hrun₂, hsources₂, -⟩ := timedStep_scan h₂
  obtain ⟨hnext₁, hreaders⟩ := scanSources_refreshed hread hrun₁
  obtain ⟨hnext₂, -⟩ := scanSources_refreshed (hsame ▸ hread) hrun₂
  rw [hnext₁] at hsources₁
  rw [hnext₂] at hsources₂
  exact ⟨by rw [hsources₁, hsources₂, hsame], hsources₁ ▸ hreaders⟩

theorem unwinding_sources :
    Unwinding (timedStep T isConnected) TimedCall.common (SameSources (σ := σ))
    (fun _ _ => True) (fun _ _ => True) (fun _ => ([] : List Unit)) (fun _ => []) where
  left := by
    rintro i s o s' t hi - hrel hstep
    have hsources := (timedStep_hidden hi hstep).1
    exact ⟨⟨hsources.trans hrel.1, hsources ▸ hrel.2⟩, rfl⟩
  right := by
    rintro j s t p t' hj - hrel hstep
    exact ⟨⟨hrel.1.trans (timedStep_hidden hj hstep).1.symm, hrel.2⟩, rfl⟩
  both := by
    rintro i j k s o s' t p t' hi hj - - hrel hstep hstep'
    obtain rfl := TimedCall.common_eq hi
    obtain rfl := TimedCall.common_eq hj
    cases j with
    | register start count => exact ⟨hrel.register hstep hstep', rfl⟩
    | scan clock readings => exact ⟨hrel.scan hstep hstep', rfl⟩
    | accept clock request => cases hi
    | remove id => cases hi

theorem unwinding_entry (id₁ id₂ : SubscriptionID) :
    Unwinding (timedStep T isConnected) TimedCall.common (SameEntry (σ := σ) id₁ id₂)
      (Spares id₁) (Spares id₂)
      (fun e => own id₁ e.outcome.issued) (fun e => own id₂ e.outcome.issued) where
  left := by
    rintro i s o s' t hi hspares ⟨hsame, e, hentry₁, hentry₂⟩ hstep
    obtain ⟨hsources, hissued, hkeep⟩ := timedStep_hidden hi hstep
    refine ⟨⟨⟨hsources.trans hsame.1, hsources ▸ hsame.2⟩, e, hkeep id₁ e hspares.2 hentry₁,
      hentry₂⟩, ?_⟩
    rw [hissued]
    rfl
  right := by
    rintro j s t p t' hj hspares ⟨hsame, e, hentry₁, hentry₂⟩ hstep
    obtain ⟨hsources, hissued, hkeep⟩ := timedStep_hidden hj hstep
    refine ⟨⟨⟨hsame.1.trans hsources.symm, hsame.2⟩, e, hentry₁, hkeep id₂ e hspares.2 hentry₂⟩, ?_⟩
    rw [hissued]
    rfl
  both := by
    rintro i j k s o s' t p t' hi hj hspares₁ hspares₂ ⟨hsame, e, hentry₁, hentry₂⟩ hstep hstep'
    obtain rfl := TimedCall.common_eq hi
    obtain rfl := TimedCall.common_eq hj
    cases j with
    | register start count =>
      obtain ⟨-, hsubs₁, hissued₁⟩ := timedStep_register hstep
      obtain ⟨-, hsubs₂, hissued₂⟩ := timedStep_register hstep'
      exact ⟨⟨hsame.register hstep hstep', e, hsubs₁ ▸ hentry₁, hsubs₂ ▸ hentry₂⟩,
        by rw [hissued₁, hissued₂]; rfl⟩
    | scan clock readings =>
      obtain ⟨outs₁, net₁, hrun₁, -, hissued₁⟩ := timedStep_scan hstep
      obtain ⟨outs₂, net₂, hrun₂, -, hissued₂⟩ := timedStep_scan hstep'
      rw [← hsame.1] at hrun₂
      have halike : Alike id₁ id₂ (s.publisher.subscriptions, { s.net with clock, readings })
          (t.publisher.subscriptions, { t.net with clock, readings }) :=
        ⟨rfl, rfl, hspares₁.1, hspares₂.1, e, hentry₁, hentry₂⟩
      obtain ⟨halike', hown⟩ := scanSources_agree hsame.2 halike hrun₁ hrun₂
      exact ⟨⟨hsame.scan hstep hstep', halike'.same_entry⟩, by rw [hissued₁, hissued₂, hown]⟩
    | accept clock request => cases hi
    | remove id => cases hi

/-! ### A subscription among others -/

/-- How many of the calls are acceptances. -/
def timedAccepts (calls : List TimedCall) : ℕ := accepts (calls.map (TimedCall.call (σ := σ)))

theorem timedAccepts_cons (call : TimedCall) (calls : List TimedCall) :
    timedAccepts (σ := σ) (call :: calls) = timedAccepts (σ := σ) [call] +
      timedAccepts (σ := σ) calls :=
  accepts_cons _ _

theorem timedStep_numbered {n : ℕ} (hs : Numbered n s)
    (hfew : n + timedAccepts (σ := σ) [call] < 2 ^ 32)
    (h : timedStep T isConnected call s = .ok (e, s')) :
    Numbered (n + timedAccepts (σ := σ) [call]) s' := by
  obtain ⟨-, -, -, hperform⟩ := step_event h
  have hmoment : Numbered n { s with net := call.moment s.net } := ⟨hs.next, hs.used, hs.distinct⟩
  exact (perform_numbered hmoment hfew hperform).1

/-- In a run with few acceptances that does not remove it, every call spares the
subscription. -/
theorem guarded_spares {n : ℕ} {id : SubscriptionID} (calls : List TimedCall) (hs : Numbered n s)
    (hfew : n + timedAccepts (σ := σ) calls < 2 ^ 32) (hkept : .remove id ∉ calls) :
    Guarded (timedStep T isConnected) (Spares id) calls s := by
  induction calls generalizing n s with
  | nil => trivial
  | cons call calls ih =>
    have hsplit := timedAccepts_cons (σ := σ) call calls
    rw [List.mem_cons, not_or] at hkept
    refine ⟨⟨hs.distinct, Ne.symm hkept.1⟩, fun e s' hstep => ?_⟩
    exact ih (timedStep_numbered hs (by omega) hstep) (by omega) hkept.2

theorem run_timed_numbered {n : ℕ} (calls : List TimedCall)
    {events : List (PublisherEvent (Moment σ))} (hs : Numbered n s)
    (hfew : n + timedAccepts (σ := σ) calls < 2 ^ 32)
    (hrun : runAll (timedStep T isConnected) calls s = .ok (events, s')) :
    Numbered (n + timedAccepts (σ := σ) calls) s' := by
  induction calls generalizing n s events with
  | nil =>
    cases hrun
    exact hs
  | cons call calls ih =>
    have hsplit := timedAccepts_cons (σ := σ) call calls
    obtain ⟨e, s₁, events', hfirst, hothers, rfl⟩ := runAll_cons.mp hrun
    rw [hsplit, ← Nat.add_assoc] at hfew ⊢
    exact ih (timedStep_numbered hs (by omega) hfirst) hfew hothers

/-- A run in which `request` is accepted as `id` after the calls `earlier`, kept during
the calls `later`, and told `told`. -/
structure Attended (T : Transport σ) (isConnected : σ → Bool)
    (earlier : List TimedCall) (clock : Timestamp) (request : SubscriptionRequest)
    (later : List TimedCall) (id : SubscriptionID) (told : List EventNotification) :
    Prop where
  few : timedAccepts (σ := σ) (earlier ++ .accept clock request :: later) < 2 ^ 32
  kept : .remove id ∉ later
  run : ∃ m before s accepted s' after last,
    runAll (timedStep T isConnected) earlier ⟨{}, m⟩ = .ok (before, s) ∧
    timedStep T isConnected (.accept clock request) s = .ok (accepted, s') ∧
    accepted.outcome = .accepted (.value id) ∧
    runAll (timedStep T isConnected) later s' = .ok (after, last) ∧
    told = after.flatMap fun e => own id e.outcome.issued

theorem accepted_entry {n : ℕ} {clock : Timestamp} {request : SubscriptionRequest}
    {id : SubscriptionID} (hs : Numbered n s) (hfew : n + 1 < 2 ^ 32)
    (h : timedStep T isConnected (.accept clock request) s = .ok (e, s'))
    (haccepted : e.outcome = .accepted (.value id)) :
    entry id s'.publisher.subscriptions = some (request, clock) := by
  obtain ⟨-, -, -, hperform⟩ := step_event h
  obtain ⟨houtcome, hsubs, -, -, -⟩ := perform_accept hperform
  rw [haccepted, PublisherOutcome.accepted.injEq, Result.value.injEq] at houtcome
  have hfresh := hs.next_fresh hfew
  have hnone : s.publisher.subscriptions.find? (·.id = id) = none := by
    rw [List.find?_eq_none]
    intro sub hsub heq
    rw [decide_eq_true_eq] at heq
    exact hfresh (houtcome ▸ heq ▸ List.mem_map_of_mem hsub)
  rw [entry, hsubs, List.find?_append, hnone, Option.none_or,
    List.find?_cons_of_pos (by simp [houtcome])]
  rfl

theorem attended_agree {clock : Timestamp} {request : SubscriptionRequest}
    {earlier₁ earlier₂ later₁ later₂ : List TimedCall}
    {id₁ id₂ : SubscriptionID} {told₁ told₂ : List EventNotification}
    (h₁ : Attended T isConnected earlier₁ clock request later₁ id₁ told₁)
    (h₂ : Attended T isConnected earlier₂ clock request later₂ id₂ told₂)
    (hearlier : earlier₁.filterMap TimedCall.common = earlier₂.filterMap TimedCall.common)
    (hlater : later₁.filterMap TimedCall.common = later₂.filterMap TimedCall.common) :
    told₁ = told₂ := by
  obtain ⟨m₁, before₁, s₁, accepted₁, s₁', after₁, last₁, hbefore₁, haccept₁, hid₁, hafter₁, rfl⟩ :=
    h₁.run
  obtain ⟨m₂, before₂, s₂, accepted₂, s₂', after₂, last₂, hbefore₂, haccept₂, hid₂, hafter₂, rfl⟩ :=
    h₂.run
  have hcount : ∀ earlier later : List TimedCall,
      timedAccepts (σ := σ) (earlier ++ .accept clock request :: later) =
        timedAccepts (σ := σ) earlier + (1 + timedAccepts (σ := σ) later) := by
    intro earlier later
    rw [timedAccepts, List.map_append, List.map_cons, accepts, List.countP_append]
    exact congrArg _ (accepts_cons _ _)
  have hfew₁ := h₁.few
  have hfew₂ := h₂.few
  rw [hcount, ← Nat.add_assoc] at hfew₁ hfew₂
  have hstart : ∀ m : Moment σ, Numbered 0 ⟨({} : Publisher (Moment σ)), m⟩ :=
    fun m => numbered_start _ rfl rfl m
  -- up to the acceptance only the sources matter, and they are the same
  have hempty : SameSources (⟨{}, m₁⟩ : Publishing (Moment σ)) ⟨{}, m₂⟩ :=
    ⟨rfl, List.forall_mem_nil _⟩
  have hsame : SameSources s₁ s₂ :=
    (unwinding_sources.run earlier₁ earlier₂ hearlier (guarded_true _ _) (guarded_true _ _)
    hempty hbefore₁ hbefore₂).1
  have hs₁ := run_timed_numbered earlier₁ (hstart m₁) (by omega) hbefore₁
  have hs₂ := run_timed_numbered earlier₂ (hstart m₂) (by omega) hbefore₂
  rw [Nat.zero_add] at hs₁ hs₂
  have hentry₁ := accepted_entry hs₁ (by omega) haccept₁ hid₁
  have hentry₂ := accepted_entry hs₂ (by omega) haccept₂ hid₂
  have hsources₁ := (timedStep_hidden rfl haccept₁).1
  have hsources₂ := (timedStep_hidden rfl haccept₂).1
  have hrel : SameEntry id₁ id₂ s₁' s₂' :=
    ⟨⟨by rw [hsources₁, hsources₂, hsame.1], hsources₁ ▸ hsame.2⟩, (request, clock),
      hentry₁, hentry₂⟩
  -- and from then on the subscription is spared
  have hone : timedAccepts (σ := σ) [TimedCall.accept clock request] = 1 := rfl
  have hs₁' := timedStep_numbered hs₁ (by omega) haccept₁
  have hs₂' := timedStep_numbered hs₂ (by omega) haccept₂
  exact ((unwinding_entry id₁ id₂).run later₁ later₂ hlater
    (guarded_spares later₁ hs₁' (by omega) h₁.kept)
    (guarded_spares later₂ hs₂' (by omega) h₂.kept) hrel hafter₁ hafter₂).2

/-- What the removal of an id must do. -/
structure Removes (id : SubscriptionID) (e : PublisherEvent τ)
    (later : List (PublisherEvent τ)) : Prop where
  result : ∃ result, e.outcome = .removed result ∧ (result.hasValue = true ↔ id ∈ e.before.ids)
  others : e.after.publisher.subscriptions = e.before.publisher.subscriptions.filter (·.id ≠ id)
  once : id ∈ e.before.ids → e.before.ids.count id = 1
  silent : id ∈ e.before.ids → ∀ e' ∈ later, ∀ notif ∈ e'.outcome.issued, notif.subscriptionId ≠ id

/-- Ids are distinct, a removal takes its own subscription away and no other, and no
subscription is told more or less because of another. -/
theorem subscriptions_independent {τ σ : Type} (W : World τ) (T : Transport σ)
    (isConnected : σ → Bool) :
    (∀ (calls : List (PublisherCall τ)) (net : τ) (events : List (PublisherEvent τ)) (last : Publishing τ),
      accepts calls < 2 ^ 32 → runAll (step W) calls ⟨{}, net⟩ = .ok (events, last) →
      (∀ e ∈ events, e.after.ids.Nodup) ∧
        ∀ earlier e later id, events = earlier ++ e :: later → e.call = .remove id →
          Removes id e later) ∧
    ∀ (clock : Timestamp) (request : SubscriptionRequest) (earlier₁ earlier₂ later₁ later₂ : List TimedCall)
      (id₁ id₂ : SubscriptionID) (told₁ told₂ : List EventNotification),
      Attended T isConnected earlier₁ clock request later₁ id₁ told₁ →
      Attended T isConnected earlier₂ clock request later₂ id₂ told₂ →
      earlier₁.filterMap TimedCall.common = earlier₂.filterMap TimedCall.common →
      later₁.filterMap TimedCall.common = later₂.filterMap TimedCall.common → told₁ = told₂ := by
  refine ⟨?_, fun _ _ _ _ _ _ _ _ _ _ h₁ h₂ hearlier hlater => attended_agree h₁ h₂ hearlier hlater⟩
  intro calls net events last hfew hrun
  have hstart : Numbered 0 (⟨{}, net⟩ : Publishing τ) := numbered_start _ rfl rfl net
  rw [← Nat.zero_add (accepts calls)] at hfew
  obtain ⟨-, hall⟩ := run_numbered hstart hfew hrun
  refine ⟨fun e he => (hall e he).2.2, ?_⟩
  rintro earlier e later id rfl hcall
  obtain ⟨hperform, hdistinct, -⟩ := hall e (List.mem_append_right earlier List.mem_cons_self)
  rw [hcall] at hperform
  obtain ⟨result, houtcome, hresult, hsubs, -, -, -⟩ := perform_remove hperform
  exact ⟨⟨result, houtcome, hresult⟩, hsubs, List.count_eq_one_of_mem hdistinct,
    removed_silent hstart hfew hrun hcall⟩

/-- Every change of one register, among other subscriptions and alone. -/
theorem subscriptions_independent_pair : ∃ events e later last told₁ told₂,
    runAll (step (Moment.world .replies fun _ => true))
      [.register 0 1 Moment.read, .accept {}, .accept {}, .scan, .remove 1, .scan]
      ⟨{}, ⟨0⟩, [[5], [6]], []⟩ = .ok (events ++ e :: later, last) ∧
    e.before.ids = [1, 2] ∧ Removes 1 e later ∧ later.length = 1 ∧
    Attended .replies (fun _ => true)
      [.register 0 1, .accept ⟨3⟩ { trigger := .periodic, interval := some 0 }, .scan ⟨4⟩ [[5]]]
      ⟨5⟩ {} [.scan ⟨6⟩ [[7]], .remove 1, .scan ⟨8⟩ [[7]], .scan ⟨9⟩ [[8]]] 2 told₁ ∧
    Attended .replies (fun _ => true) [.register 0 1, .scan ⟨4⟩ [[5]]] ⟨5⟩ {}
      [.scan ⟨6⟩ [[7]], .scan ⟨8⟩ [[7]], .scan ⟨9⟩ [[8]]]
      1 told₂ ∧
    told₁ = [⟨0, 0, ⟨6⟩, [7], [5]⟩, ⟨0, 0, ⟨9⟩, [8], [7]⟩] ∧ told₁ = told₂ := by
  obtain ⟨events, e, later, last, hrun, hcall, hids, hlater⟩ : ∃ events e later last,
      runAll (step (Moment.world .replies fun _ => true))
        [.register 0 1 Moment.read, .accept {}, .accept {}, .scan, .remove 1, .scan]
          ⟨{}, ⟨0⟩, [[5], [6]], []⟩ =
        .ok (events ++ e :: later, last) ∧ e.call = .remove 1 ∧ e.before.ids = [1, 2] ∧
        later.length = 1 :=
    ⟨[_, _, _, _], _, [_], _, rfl, rfl, rfl, rfl⟩
  obtain ⟨hremoved, htold⟩ :=
    subscriptions_independent (Moment.world Transport.replies fun _ => true)
    Transport.replies fun _ => true
  have hamong : Attended .replies (fun _ => true)
      [.register 0 1, .accept ⟨3⟩ { trigger := .periodic, interval := some 0 }, .scan ⟨4⟩ [[5]]]
      ⟨5⟩ {} [.scan ⟨6⟩ [[7]], .remove 1, .scan ⟨8⟩ [[7]], .scan ⟨9⟩ [[8]]] 2
      [⟨0, 0, ⟨6⟩, [7], [5]⟩, ⟨0, 0, ⟨9⟩, [8], [7]⟩] :=
    ⟨by decide, by decide, ⟨⟨0⟩, [], []⟩, [_, _, _], _, _, _, [_, _, _, _], _, rfl, rfl, rfl,
      rfl, by decide⟩
  have halone : Attended .replies (fun _ => true) [.register 0 1, .scan ⟨4⟩ [[5]]] ⟨5⟩ {}
      [.scan ⟨6⟩ [[7]], .scan ⟨8⟩ [[7]], .scan ⟨9⟩ [[8]]] 1
        [⟨0, 0, ⟨6⟩, [7], [5]⟩, ⟨0, 0, ⟨9⟩, [8], [7]⟩] :=
    ⟨by decide, by decide, ⟨⟨0⟩, [], []⟩, [_, _], _, _, _, [_, _, _], _, rfl, rfl, rfl,
      rfl, by decide⟩
  exact ⟨events, e, later, last, _, _, hrun, hids,
    (hremoved _ _ _ _ (by decide) hrun).2 events e later 1 rfl hcall, hlater, hamong, halone, rfl,
    htold _ _ _ _ _ _ _ _ _ _ hamong halone (by decide) (by decide)⟩

end Publisher

end ModbusPp

import ModbusPp.PubSub.Publisher

/-! What a scan does, turn by turn. A row of its log holds what one source issued for
each of the subscriptions, which are the same in every row up to the time they were
last notified. -/

namespace ModbusPp

open Foundation

variable {τ : Type}

/-- The subscribed registers among the values of the source. -/
def DataSource.registers (source : DataSource τ) (request : SubscriptionRequest)
    (values : List UInt16) : List UInt16 :=
  (values.drop (request.startAddress.toNat - source.start.toNat)).take request.count.toNat

/-- The baseline of the subscription, empty before the first scan. -/
def DataSource.baseline (source : DataSource τ) (request : SubscriptionRequest) : List UInt16 :=
  if source.hasBaseline then source.registers request source.lastValues else []

/-- The notifications that a scan issued, in order. -/
def issuedIn (log : List (List (Option Issued))) : List EventNotification :=
  log.flatMap fun row => row.flatMap fun issued => issued.toList.map Issued.notification

/-- A scan that returned, between the states before and after it. -/
structure ScanEvent (τ : Type) where
  log : List (List (Option Issued))
  before : Publishing τ
  after : Publishing τ

namespace ScanEvent

/-- The notifications that the scan issued for entry `j` of the subscriptions. -/
def issued (j : ℕ) (e : ScanEvent τ) : List Issued := e.log.filterMap fun row => (row[j]?).join

end ScanEvent

namespace Publisher

variable (W : World τ)

def scan (_ : Unit) (s : Publishing τ) : Checked (ScanEvent τ × Publishing τ) := do
  let (log, s') ← scanAndNotify W s
  return (⟨log, s, s'⟩, s')

variable {W}

/-- A slice that begins among the values is the subscribed registers that are there. -/
theorem slice_eq_of_le {source : DataSource τ} {request : SubscriptionRequest}
    {values : List UInt16}
    (hoffset : request.startAddress.toNat - source.start.toNat ≤ values.length) :
    source.slice request values = .ok (source.registers request values) := by
  have hcut : min (request.startAddress.toNat - source.start.toNat + request.count.toNat)
    values.length -
      (request.startAddress.toNat - source.start.toNat) =
      min request.count.toNat
        (values.length - (request.startAddress.toNat - source.start.toNat)) := by
    omega
  rw [DataSource.slice, (Span.views_ofList values).copy
    (le_min (Nat.le_add_right _ _) hoffset) (min_le_right _ _), hcut,
    ← List.length_drop, ← List.take_eq_take_min]
  rfl

/-- The slice is the subscribed registers that the source has, if its values are all
there. -/
theorem slice_eq {source : DataSource τ} {request : SubscriptionRequest} {values : List UInt16}
    (hcovers : source.Covers request) (hfull : values.length = source.count.toNat) :
    source.slice request values = .ok (source.registers request values) := by
  have hcovered := hcovers.2
  exact slice_eq_of_le (by omega)

/-- The baseline is sliced as the values are. -/
theorem previousSlice_eq {source : DataSource τ} {request : SubscriptionRequest}
    (hcovers : source.Covers request)
    (hbaseline : source.hasBaseline = true → source.lastValues.length = source.count.toNat) :
    source.previousSlice request = .ok (source.baseline request) := by
  unfold DataSource.previousSlice DataSource.baseline
  split_ifs with hbase
  · exact slice_eq hcovers (hbaseline hbase)
  · rfl

/-- All that `should_notify` does to the world is to read the clock. -/
theorem shouldNotify_net {sub : ActiveSubscription} {current previous : List UInt16}
    {net net' : τ} {notify : Bool}
    (h : shouldNotify W sub current previous net = .ok (notify, net')) :
    net' = net ∨ net' = (W.now net).2 := by
  unfold shouldNotify at h
  split at h
  · split at h
    · cases h
      exact .inl rfl
    · obtain ⟨elapsed, -, h⟩ := bind_eq_ok.mp h
      obtain ⟨interval, -, h⟩ := bind_eq_ok.mp h
      cases h
      exact .inr rfl
  · cases h
    exact .inl rfl
  · cases h
    exact .inl rfl

/-- What no reading of the clock changes is left as it is. -/
theorem shouldNotify_keeps {α : Type} {f : τ → α} (hnow : ∀ net, f (W.now net).2 = f net)
    {sub : ActiveSubscription} {current previous : List UInt16} {net net' : τ} {notify : Bool}
    (h : shouldNotify W sub current previous net = .ok (notify, net')) : f net' = f net := by
  rcases shouldNotify_net h with rfl | rfl
  · rfl
  · exact hnow net

/-- A push hands the transport the frame, or does nothing without a connection. -/
theorem push_cases {notif : EventNotification} {net net' : τ} {delivered : Bool}
    (h : push W notif net = .ok (delivered, net')) :
    (W.isConnected net = false ∧ delivered = false ∧ net' = net) ∨
      ∃ sent, W.isConnected net = true ∧ W.send notif.frame net = .ok (sent, net') ∧
        delivered = sent.hasValue := by
  unfold push at h
  split_ifs at h with hconnected
  · obtain ⟨⟨sent, net₁⟩, hsend, h⟩ := bind_eq_ok.mp h
    cases h
    exact .inr ⟨sent, hconnected, hsend, rfl⟩
  · cases h
    exact .inl ⟨by simpa using hconnected, rfl, rfl⟩

/-- One turn of the inner loop: the source does not cover the subscription, or its
registers are not to be told, or they are. -/
inductive Turn (W : World τ) (source : DataSource τ) (current : List UInt16)
    (sub : ActiveSubscription) (net : τ) :
    Option Issued → ActiveSubscription → τ → Prop
  | uncovered (hcovers : ¬source.Covers sub.request) : Turn W source current sub net none sub net
  | quiet (hcovers : source.Covers sub.request) {slice prevSlice : List UInt16} {net₁ : τ}
    (hslice : source.slice sub.request current = .ok slice)
    (hprev : source.previousSlice sub.request = .ok prevSlice)
    (hnotify : shouldNotify W sub slice prevSlice net = .ok (false, net₁)) :
    Turn W source current sub net none sub net₁
  | told (hcovers : source.Covers sub.request) {slice prevSlice : List UInt16}
      {net₁ net₃ : τ} {delivered : Bool}
    (hslice : source.slice sub.request current = .ok slice)
    (hprev : source.previousSlice sub.request = .ok prevSlice)
    (hnotify : shouldNotify W sub slice prevSlice net = .ok (true, net₁))
    (hpush : push W ⟨sub.id, sub.request.startAddress, (W.now net₁).1, slice, prevSlice⟩
      (W.now net₁).2 =
      .ok (delivered, net₃)) :
    Turn W source current sub net
      (some ⟨⟨sub.id, sub.request.startAddress, (W.now net₁).1, slice, prevSlice⟩, delivered⟩)
      { sub with lastNotified := (W.now net₃).1 } (W.now net₃).2

theorem notifyOne_turn {source : DataSource τ} {current : List UInt16}
    {sub sub' : ActiveSubscription} {net net' : τ} {issued : Option Issued}
    (h : notifyOne W source current sub net = .ok ((issued, sub'), net')) :
    Turn W source current sub net issued sub' net' := by
  unfold notifyOne at h
  split_ifs at h with hcovers
  · obtain ⟨slice, hslice, h⟩ := bind_eq_ok.mp h
    obtain ⟨prevSlice, hprev, h⟩ := bind_eq_ok.mp h
    obtain ⟨⟨notify, net₁⟩, hnotify, h⟩ := bind_eq_ok.mp h
    cases notify with
    | false =>
      simp only [Bool.not_false, if_true] at h
      cases h
      exact .quiet hcovers hslice hprev hnotify
    | true =>
      simp only [Bool.not_true, Bool.false_eq_true, if_false] at h
      obtain ⟨⟨delivered, net₂⟩, hpush, h⟩ := bind_eq_ok.mp h
      cases h
      exact .told hcovers hslice hprev hnotify hpush
  · cases h
    exact .uncovered hcovers

/-- What one turn of the inner loop does: pass over the subscription, or look at its
registers and tell them if `should_notify` says so. -/
theorem notifyOne_cases {source : DataSource τ} {current : List UInt16}
    {sub sub' : ActiveSubscription} {net net' : τ} {issued : Option Issued}
    (h : notifyOne W source current sub net = .ok ((issued, sub'), net')) :
    sub'.request = sub.request ∧
    ((¬source.Covers sub.request ∧ issued = none) ∨ source.Covers sub.request ∧
    ∃ slice prevSlice notify net₁, source.slice sub.request current = .ok slice ∧
      source.previousSlice sub.request = .ok prevSlice ∧
      shouldNotify W sub slice prevSlice net = .ok (notify, net₁) ∧
      issued.toList.map (·.notification.currentValues) = if notify then [slice] else []) := by
  cases notifyOne_turn h with
  | uncovered hcovers => exact ⟨rfl, .inl ⟨hcovers, rfl⟩⟩
  | quiet hcovers hslice hprev hnotify =>
    exact ⟨rfl, .inr ⟨hcovers, _, _, false, _, hslice, hprev, hnotify, rfl⟩⟩
  | told hcovers hslice hprev hnotify hpush =>
    exact ⟨rfl, .inr ⟨hcovers, _, _, true, _, hslice, hprev, hnotify, rfl⟩⟩

/-- A covered OnChange subscription is told its registers exactly if they have changed. -/
theorem notifyOne_onChange {source : DataSource τ} {current slice prevSlice : List UInt16}
    {sub sub' : ActiveSubscription} {net net' : τ} {issued : Option Issued}
    (h : notifyOne W source current sub net = .ok ((issued, sub'), net'))
    (hcovers : source.Covers sub.request) (htrigger : sub.request.trigger = .onChange)
    (hslice : source.slice sub.request current = .ok slice)
    (hprev : source.previousSlice sub.request = .ok prevSlice) :
    issued.toList.map (·.notification.currentValues) =
      if changed sub.request.deadBand slice prevSlice then [slice] else [] := by
  obtain ⟨-, ⟨huncovered, -⟩ |
    ⟨-, slice', prevSlice', notify, net₁, hslice', hprev', hnotify, hissued⟩⟩ :=
    notifyOne_cases h
  · exact absurd hcovers huncovered
  · rw [hslice] at hslice'
    rw [hprev] at hprev'
    cases hslice'
    cases hprev'
    rw [shouldNotify, htrigger] at hnotify
    cases hnotify
    exact hissued

theorem map_eq_of_forall₂ {α β γ : Type} {R : α → β → Prop} {f : α → γ}
    {g : β → γ} {l : List α} {m : List β} (h : List.Forall₂ R l m)
    (hsame : ∀ a b, R a b → g b = f a) : m.map g = l.map f := by
  induction h with
  | nil => rfl
  | cons hab _ ih => rw [List.map_cons, List.map_cons, hsame _ _ hab, ih]

/-- A scan looks once at every source, with the subscriptions as they were. -/
theorem scanSource_facts {source source' : DataSource τ}
    {subs subs' : List ActiveSubscription} {net net' : τ} {row : List (Option Issued)}
    (h : scanSource W source (subs, net) = .ok ((row, source'), subs', net')) :
    subs'.map ActiveSubscription.request = subs.map ActiveSubscription.request ∧
    ∃ current net₁, source.reader net = .ok (current, net₁) ∧
      source' = { source with lastValues := current, hasBaseline := true } ∧
      List.Forall₂ (fun sub issued => ∃ net₂ sub' net₃,
        notifyOne W source current sub net₂ = .ok ((issued, sub'), net₃))
        subs row := by
  obtain ⟨⟨current, net₁⟩, hread, h⟩ := bind_eq_ok.mp h
  obtain ⟨⟨outs, net₂⟩, hsubs, h⟩ := bind_eq_ok.mp h
  cases h
  have hall := (runAll_forall₂ (fun _ => True) (fun _ _ _ _ _ _ => trivial) subs trivial hsubs).2
  refine ⟨?_, current, net₁, hread, rfl, ?_⟩
  · rw [List.map_map]
    refine map_eq_of_forall₂ hall ?_
    rintro sub ⟨issued, sub'⟩ ⟨s₁, s₂, -, hone⟩
    exact (notifyOne_cases hone).1
  · refine List.forall₂_map_right_iff.mpr (hall.imp ?_)
    rintro sub ⟨issued, sub'⟩ ⟨s₁, s₂, -, hone⟩
    exact ⟨s₁, sub', s₂, hone⟩

/-- The turns of a scan of one source, with an invariant of the world between them. -/
theorem scanSource_turns (inv : τ → Prop) {source source' : DataSource τ}
    {subs subs' : List ActiveSubscription} {net net' : τ} {row : List (Option Issued)}
    (hread : ∀ current net₁, source.reader net = .ok (current, net₁) → inv net₁)
    (hkeep : ∀ current sub n issued sub' n', inv n →
      Turn W source current sub n issued sub' n' → inv n')
    (h : scanSource W source (subs, net) = .ok ((row, source'), subs', net')) :
    inv net' ∧ ∃ current net₁ outs, source.reader net = .ok (current, net₁) ∧
      source' = { source with lastValues := current, hasBaseline := true } ∧
      row = outs.map Prod.fst ∧ subs' = outs.map Prod.snd ∧
      List.Forall₂ (fun sub out => ∃ n n', inv n ∧ Turn W source current sub n out.1 out.2 n')
        subs outs := by
  obtain ⟨⟨current, net₁⟩, hcurrent, h⟩ := bind_eq_ok.mp h
  obtain ⟨⟨outs, net₂⟩, hsubs, h⟩ := bind_eq_ok.mp h
  cases h
  obtain ⟨hinv, hall⟩ := runAll_forall₂ inv
    (fun sub n o n' hn hone => hkeep current sub n o.1 o.2 n' hn (notifyOne_turn hone)) subs
    (hread current net₁ hcurrent) hsubs
  refine ⟨hinv, current, net₁, outs, hcurrent, rfl, rfl, rfl, hall.imp ?_⟩
  rintro sub out ⟨n, n', hn, hone⟩
  exact ⟨n, n', hn, notifyOne_turn hone⟩

theorem forall₂_at {α β : Type} {R : α → β → Prop} {l : List α} {m : List β}
    (h : List.Forall₂ R l m) {k : ℕ} {a : α} (ha : l[k]? = some a) :
    ∃ b, m[k]? = some b ∧ R a b := by
  obtain ⟨hlength, hall⟩ := List.forall₂_iff_get.mp h
  obtain ⟨hk, rfl⟩ := List.getElem?_eq_some_iff.mp ha
  exact ⟨m.get ⟨k, hlength ▸ hk⟩, List.getElem?_eq_getElem _, hall k hk _⟩

/-- A filter that lets through one entry at most. -/
theorem filterMap_only {α β : Type} {f : α → Option β} {l : List α} (k : ℕ)
    (honly : ∀ k' ≠ k, ∀ a, l[k']? = some a → f a = none) :
    l.filterMap f = (l[k]?.bind f).toList := by
  induction l generalizing k with
  | nil => rfl
  | cons a l ih =>
    cases k with
    | zero =>
      have hrest : l.filterMap f = [] :=
        List.filterMap_eq_nil_iff.mpr fun b hb => by
          obtain ⟨i, hi⟩ := List.mem_iff_getElem?.mp hb
          exact honly (i + 1) (by omega) b hi
      cases hf : f a <;> simp [hf, hrest]
    | succ k =>
      have hfirst : f a = none := honly 0 (by omega) a rfl
      rw [List.filterMap_cons_none hfirst, ih k fun k' hk' b hb => honly (k' + 1) (by omega) b hb]
      rfl

/-- A scan goes once over the sources, always with subscriptions that have the requests
they had when it began. -/
theorem scan_rows {s s' : Publishing τ} {e : ScanEvent τ} (h : scan W () s = .ok (e, s')) :
    e.after = s' ∧ s'.publisher.subscriptions.map ActiveSubscription.request =
        s.publisher.subscriptions.map ActiveSubscription.request ∧
      ∃ outs, e.log = outs.map Prod.fst ∧ s'.publisher.sources = outs.map Prod.snd ∧
        List.Forall₂ (fun source out => ∃ subs net subs' net', subs.map ActiveSubscription.request =
            s.publisher.subscriptions.map ActiveSubscription.request ∧
          scanSource W source (subs, net) = .ok (out, subs', net')) s.publisher.sources outs := by
  obtain ⟨⟨log, t⟩, hscan, h⟩ := bind_eq_ok.mp h
  cases h
  obtain ⟨⟨outs, subs, net⟩, hsources, hscan⟩ := bind_eq_ok.mp hscan
  cases hscan
  obtain ⟨hsame, hall⟩ := runAll_forall₂
    (fun p : List ActiveSubscription × τ => p.1.map ActiveSubscription.request =
      s.publisher.subscriptions.map ActiveSubscription.request)
    (fun source p out p' hp hone => (scanSource_facts hone).1.trans hp)
      s.publisher.sources rfl hsources
  refine ⟨rfl, hsame, outs, rfl, rfl, hall.imp ?_⟩
  rintro source out ⟨⟨subs₁, net₁⟩, ⟨subs₂, net₂⟩, hsubs, hone⟩
  exact ⟨subs₁, net₁, subs₂, net₂, hsubs, hone⟩

variable {source source' : DataSource τ} {request : SubscriptionRequest}
  {subs subs' : List ActiveSubscription}
  {net net' : τ} {row : List (Option Issued)} {k j : ℕ}

/-- What a row has for one of the subscriptions comes from a turn of the inner loop. -/
theorem row_at (h : scanSource W source (subs, net) = .ok ((row, source'), subs', net'))
    (hrequest : (subs.map ActiveSubscription.request)[j]? = some request) :
    ∃ issued sub sub' current net₁ net₂ net₃ net₄, row[j]? = some issued ∧ sub.request = request ∧
      source.reader net₁ = .ok (current, net₂) ∧
      source' = { source with lastValues := current, hasBaseline := true } ∧
      notifyOne W source current sub net₃ = .ok ((issued, sub'), net₄) := by
  obtain ⟨-, current, net₂, hread, hsource, hrow⟩ := scanSource_facts h
  rw [List.getElem?_map] at hrequest
  obtain ⟨sub, hsub, hrequest⟩ := Option.map_eq_some_iff.mp hrequest
  obtain ⟨issued, hissued, net₃, sub', net₄, hnotify⟩ := forall₂_at hrow hsub
  exact ⟨issued, sub, sub', current, net, net₂, net₃, net₄, hissued, hrequest, hread,
    hsource, hnotify⟩

/-- A source passes over the subscriptions that it does not cover. -/
theorem row_uncovered (h : scanSource W source (subs, net) = .ok ((row, source'), subs', net'))
    (hrequest : (subs.map ActiveSubscription.request)[j]? = some request)
    (huncovered : ¬source.Covers request) :
    (row[j]?).join = none := by
  obtain ⟨issued, sub, sub', current, net₁, net₂, net₃, net₄, hissued, rfl, -, -, hnotify⟩ :=
    row_at h hrequest
  obtain ⟨-, ⟨-, hnone⟩ | ⟨hcovered, -⟩⟩ := notifyOne_cases hnotify
  · rw [hissued, hnone]
    rfl
  · exact absurd hcovered huncovered

end Publisher

end ModbusPp

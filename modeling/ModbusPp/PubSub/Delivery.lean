import ModbusPp.Foundation.Fifo
import ModbusPp.PubSub.EventCodec
import ModbusPp.PubSub.PublisherRuns

/-! Delivery of notifications over a first-in first-out transport. What the scans issue
goes to the back of the queue, what the polls take comes off its front, so a run that
ends with a poll has handed over everything it issued, in order and to the handler of
its subscription. -/

namespace ModbusPp

open Foundation

variable {τ : Type}

/-- A connected transport that keeps every frame until it is received, `queue` being
what is under way. -/
structure World.Lossless (W : World τ) (queue : τ → List (List UInt8)) : Prop where
  connected : ∀ net, W.isConnected net = true
  send : ∀ frame net, ∃ net', W.send frame net = .ok (.ok, net') ∧ queue net' = queue net ++ [frame]
  receive_nil : ∀ timeout net, queue net = [] →
    ∃ ec net', W.receive timeout net = .ok (.failure ec, net') ∧ queue net' = []
  receive_cons : ∀ timeout net frame frames, queue net = frame :: frames →
    ∃ net', W.receive timeout net = .ok (.value frame, net') ∧ queue net' = frames
  now : ∀ net, queue (W.now net).2 = queue net

/-- The reader does not touch the transport. -/
def DataSource.Aside (queue : τ → List (List UInt8)) (source : DataSource τ) : Prop :=
  ∀ net values net', source.reader net = .ok (values, net') → queue net' = queue net

/-- The frames of the notifications `q` are under way. -/
def UnderWay (queue : τ → List (List UInt8)) (net : τ) (q : List EventNotification) : Prop :=
  queue net = q.map EventNotification.frame ∧ ∀ notif ∈ q, notif.Fits

/-- Publisher and subscriber at work on one world. -/
inductive FeedCall
  | scan
  | poll (readings : List Timestamp)

inductive FeedEvent
  | scanned (log : List (List (Option Issued)))
  | polled (log : SubscriberLog)

namespace FeedEvent

def produced : FeedEvent → List EventNotification
  | .scanned log => issuedIn log
  | .polled _ => []

/-- What a poll took, with the handler that it was passed to. -/
def taken : FeedEvent → List Taken
  | .scanned _ => []
  | .polled log => log.taken

/-- A call of `poll` returns when there is nothing more to receive. -/
def Ended : FeedEvent → Prop
  | .scanned _ => True
  | .polled log => log.finished = true

end FeedEvent

def feedStep (W : World τ) (subscriber : Subscriber) (call : FeedCall) (s : Publishing τ) :
    Checked (FeedEvent × Publishing τ) :=
  match call with
  | .scan => do
    let (log, s) ← Publisher.scanAndNotify W s
    return (.scanned log, s)
  | .poll readings => do
    let (log, net) ← subscriber.poll W readings s.net
    return (.polled log, { s with net })

namespace Publisher

/-- A scan leaves the readers as they are. -/
theorem scan_readers {W : World τ} {s s' : Publishing τ} {e : ScanEvent τ}
    (h : scan W () s = .ok (e, s')) :
    ∀ source' ∈ s'.publisher.sources, ∃ source ∈ s.publisher.sources,
      source'.reader = source.reader := by
  obtain ⟨-, -, outs, -, hsources, hall⟩ := scan_rows h
  intro source' hsource'
  rw [hsources] at hsource'
  obtain ⟨⟨row, source''⟩, hout, rfl⟩ := List.mem_map.mp hsource'
  obtain ⟨k, hk⟩ := List.mem_iff_getElem?.mp hout
  obtain ⟨source, hsource, subs, net, subs', net', -, hone⟩ := forall₂_at hall.flip hk
  obtain ⟨-, current, net₁, -, rfl, -⟩ := scanSource_facts hone
  exact ⟨source, List.mem_of_getElem? hsource, rfl⟩

theorem scan_aside {W : World τ} {queue : τ → List (List UInt8)}
    {s s' : Publishing τ} {e : ScanEvent τ}
    (haside : ∀ source ∈ s.publisher.sources, source.Aside queue) (h : scan W () s = .ok (e, s')) :
    ∀ source ∈ s'.publisher.sources, source.Aside queue := by
  intro source' hsource'
  obtain ⟨source, hsource, hreader⟩ := scan_readers h source' hsource'
  rw [DataSource.Aside, hreader]
  exact haside source hsource

variable {W : World τ} {queue : τ → List (List UInt8)} (hW : W.Lossless queue)
include hW

theorem push_queue {notif : EventNotification} {net net' : τ} {delivered : Bool}
    (h : push W notif net = .ok (delivered, net')) :
    delivered = true ∧ queue net' = queue net ++ [notif.frame] := by
  obtain ⟨net₁, hsend, hqueue⟩ := hW.send notif.frame net
  rw [push, if_pos (hW.connected net), hsend] at h
  cases h
  exact ⟨rfl, hqueue⟩

omit hW in
theorem length_slice_le {source : DataSource τ} {request : SubscriptionRequest}
    {values slice : List UInt16} (h : source.slice request values = .ok slice) :
    slice.length ≤ request.count.toNat := by
  rw [DataSource.slice, Span.copy] at h
  split_ifs at h
  cases h
  rw [List.length_take]
  omega

theorem notifyOne_underWay {source : DataSource τ} {current : List UInt16}
    {sub sub' : ActiveSubscription} {net net' : τ} {issued : Option Issued}
    {q : List EventNotification} (hcount : sub.request.count.toNat ≤ 32763)
    (hq : UnderWay queue net q)
    (h : notifyOne W source current sub net = .ok ((issued, sub'), net')) :
    UnderWay queue net' (q ++ issued.toList.map Issued.notification) := by
  cases notifyOne_turn h with
  | uncovered hcovers => simpa using hq
  | quiet hcovers hslice hprev hnotify =>
    rw [Option.toList_none, List.map_nil, List.append_nil, UnderWay,
      shouldNotify_keeps hW.now hnotify]
    exact hq
  | @told hcovers slice prevSlice net₁ net₃ delivered hslice hprev hnotify hpush =>
    obtain ⟨-, hqueue⟩ := push_queue hW hpush
    rw [hW.now, shouldNotify_keeps hW.now hnotify, hq.1] at hqueue
    refine ⟨?_, ?_⟩
    · rw [hW.now, hqueue, List.map_append]
      rfl
    · intro notif hmem
      rcases List.mem_append.mp hmem with hmem | hmem
      · exact hq.2 notif hmem
      · rw [Option.toList_some, List.map_singleton, List.mem_singleton] at hmem
        subst hmem
        exact (length_slice_le hslice).trans hcount

theorem scanSource_underWay {source source' : DataSource τ}
    {subs subs' : List ActiveSubscription} {net net' : τ} {row : List (Option Issued)}
    {q : List EventNotification} (haside : source.Aside queue)
    (hcount : ∀ sub ∈ subs, sub.request.count.toNat ≤ 32763) (hq : UnderWay queue net q)
    (h : scanSource W source (subs, net) = .ok ((row, source'), subs', net')) :
    UnderWay queue net' (q ++ row.flatMap fun issued => issued.toList.map Issued.notification) := by
  obtain ⟨⟨current, net₁⟩, hread, h⟩ := bind_eq_ok.mp h
  obtain ⟨⟨outs, net₂⟩, hsubs, h⟩ := bind_eq_ok.mp h
  cases h
  have hread : UnderWay queue net₁ q := ⟨(haside net current net₁ hread).trans hq.1, hq.2⟩
  have hall := runAll_appends (UnderWay queue)
    (fun o : Option Issued × ActiveSubscription => o.1.toList.map Issued.notification) subs
    (fun sub hsub net o net' q hq h => notifyOne_underWay hW (hcount sub hsub) hq h) hread hsubs
  rwa [List.flatMap_map]

theorem scanAndNotify_underWay {s s' : Publishing τ} {log : List (List (Option Issued))}
    {q : List EventNotification} (haside : ∀ source ∈ s.publisher.sources, source.Aside queue)
    (hcount : ∀ sub ∈ s.publisher.subscriptions, sub.request.count.toNat ≤ 32763)
    (hq : UnderWay queue s.net q) (h : scanAndNotify W s = .ok (log, s')) :
    UnderWay queue s'.net (q ++ issuedIn log) := by
  obtain ⟨⟨outs, subs, net⟩, hsources, h⟩ := bind_eq_ok.mp h
  cases h
  have hall := runAll_appends (fun p : List ActiveSubscription × τ => fun q =>
      UnderWay queue p.2 q ∧ ∀ sub ∈ p.1, sub.request.count.toNat ≤ 32763)
    (fun o : List (Option Issued) × DataSource τ => o.1.flatMap fun issued =>
      issued.toList.map Issued.notification)
    s.publisher.sources ?_ ⟨hq, hcount⟩ hsources
  · rw [issuedIn, List.flatMap_map]
    exact hall.1
  · rintro source hsource ⟨subs, net⟩ ⟨row, source'⟩ ⟨subs', net'⟩ q ⟨hq, hcount⟩ h
    refine ⟨scanSource_underWay hW (haside source hsource) hcount hq h, ?_⟩
    have hrequests := (scanSource_facts h).1
    intro sub hsub
    have hmem : sub.request ∈ subs.map ActiveSubscription.request := by
      rw [← hrequests]
      exact List.mem_map_of_mem hsub
    obtain ⟨sub₀, hsub₀, heq⟩ := List.mem_map.mp hmem
    rw [← heq]
    exact hcount sub₀ hsub₀

end Publisher

namespace Subscriber

variable {W : World τ} {queue : τ → List (List UInt8)} {subscriber : Subscriber}
  {net net' : τ} {log : SubscriberLog}

/-- What becomes of a notification that is taken. -/
def handOver (subscriber : Subscriber) (notif : EventNotification) : Taken :=
  ⟨notif.frame, some notif.onWire, subscriber.handlerOf notif.subscriptionId⟩

theorem pollLoop_underWay (hW : W.Lossless queue) (readings : List Timestamp)
    {q : List EventNotification} (hq : UnderWay queue net q)
    (h : subscriber.pollLoop W.toTransport readings net = .ok (log, net'))
    (hended : log.finished = true) : UnderWay queue net' [] ∧
    log.taken = q.map subscriber.handOver := by
  induction readings generalizing net q log with
  | nil =>
    cases h
    cases hended
  | cons now readings ih =>
    obtain ⟨hqueue, hfits⟩ := hq
    cases q with
    | nil =>
      obtain ⟨ec, net₁, hreceive, hempty⟩ := hW.receive_nil 0 net hqueue
      rcases pollLoop_cons.mp h with ⟨ec', hreceive', rfl⟩ |
        ⟨frame, net₂, taken, rest, hreceive', -, -, -⟩
      · rw [hreceive] at hreceive'
        cases hreceive'
        exact ⟨⟨hempty, hfits⟩, rfl⟩
      · rw [hreceive] at hreceive'
        cases hreceive'
    | cons notif q =>
      obtain ⟨net₁, hreceive, hrest⟩ := hW.receive_cons 0 net _ _ hqueue
      rcases pollLoop_cons.mp h with ⟨ec', hreceive', rfl⟩ |
        ⟨frame, net₂, taken, rest, hreceive', htake, hloop, rfl⟩
      · rw [hreceive] at hreceive'
        cases hreceive'
      · rw [hreceive] at hreceive'
        cases hreceive'
        rw [subscriber.take_notification now (hfits notif List.mem_cons_self)] at htake
        cases htake
        obtain ⟨hempty, htaken⟩ :=
          ih ⟨hrest, fun n hn => hfits n (List.mem_cons_of_mem notif hn)⟩ hloop hended
        exact ⟨hempty, by rw [htaken]; rfl⟩

theorem poll_ends (hW : W.Lossless queue) (readings : List Timestamp) {q : List EventNotification}
    (hq : UnderWay queue net q) (hreadings : q.length < readings.length) :
    ∃ log net', subscriber.poll W readings net = .ok (log, net') ∧ log.finished = true := by
  rw [poll, if_pos (hW.connected net)]
  induction readings generalizing net q with
  | nil => cases hreadings
  | cons now readings ih =>
    obtain ⟨hqueue, hfits⟩ := hq
    cases q with
    | nil =>
      obtain ⟨ec, net₁, hreceive, -⟩ := hW.receive_nil 0 net hqueue
      exact ⟨_, net₁, pollLoop_cons.mpr (.inl ⟨ec, hreceive, rfl⟩), rfl⟩
    | cons notif q =>
      obtain ⟨net₁, hreceive, hrest⟩ := hW.receive_cons 0 net _ _ hqueue
      obtain ⟨log, net', hloop, hfinished⟩ :=
        ih ⟨hrest, fun n hn => hfits n (List.mem_cons_of_mem notif hn)⟩
        (Nat.lt_of_succ_lt_succ hreadings)
      have htake := subscriber.take_notification now (hfits notif List.mem_cons_self)
      exact ⟨_, net', pollLoop_cons.mpr (.inr ⟨_, net₁, _, log, hreceive, htake, hloop, rfl⟩),
        hfinished⟩

end Subscriber

/-- The state of a run: what is under way, and sources and subscriptions that a scan
may put more of on the way. -/
def FeedHolds (queue : τ → List (List UInt8)) (s : Publishing τ)
    (q : List EventNotification) : Prop :=
  UnderWay queue s.net q ∧ (∀ sub ∈ s.publisher.subscriptions, sub.request.count.toNat ≤ 32763) ∧
    ∀ source ∈ s.publisher.sources, source.Aside queue

section Feed

variable {W : World τ} {queue : τ → List (List UInt8)} (hW : W.Lossless queue)
  {subscriber : Subscriber}
  {s s' : Publishing τ} {q : List EventNotification}
include hW

theorem feedStep_scan {log : List (List (Option Issued))} (hq : FeedHolds queue s q)
    (h : Publisher.scanAndNotify W s = .ok (log, s')) : FeedHolds queue s' (q ++ issuedIn log) := by
  obtain ⟨hunderWay, hcount, haside⟩ := hq
  have hscan : Publisher.scan W () s = .ok (⟨log, s, s'⟩, s') := by rw [Publisher.scan, h]; rfl
  obtain ⟨-, hsame, -⟩ := Publisher.scan_rows hscan
  refine ⟨Publisher.scanAndNotify_underWay hW haside hcount hunderWay h, ?_,
    Publisher.scan_aside haside hscan⟩
  intro sub hsub
  obtain ⟨sub₀, hsub₀, heq⟩ := List.mem_map.mp (hsame ▸ List.mem_map_of_mem hsub)
  rw [← heq]
  exact hcount sub₀ hsub₀

theorem feedStep_poll {readings : List Timestamp} {log : SubscriberLog}
    {net' : τ} (hq : FeedHolds queue s q) (h : subscriber.poll W readings s.net = .ok (log, net'))
    (hended : log.finished = true) :
    FeedHolds queue { s with net := net' } [] ∧ log.taken = q.map subscriber.handOver := by
  obtain ⟨hunderWay, hcount, haside⟩ := hq
  rw [Subscriber.poll, if_pos (hW.connected s.net)] at h
  obtain ⟨hempty, htaken⟩ := Subscriber.pollLoop_underWay hW readings hunderWay h hended
  exact ⟨⟨hempty, hcount, haside⟩, htaken⟩

/-- One call: what is taken comes off the front of what is under way, what is issued
goes to its back, and a poll leaves nothing. -/
theorem feedStep_holds {call : FeedCall} {e : FeedEvent} (hq : FeedHolds queue s q)
    (h : feedStep W subscriber call s = .ok (e, s')) (hended : e.Ended) :
    ∃ q', FeedHolds queue s' q' ∧ (∀ log, e = .polled log → q' = []) ∧
      e.taken ++ q'.map subscriber.handOver = q.map subscriber.handOver ++
        e.produced.map subscriber.handOver := by
  cases call with
  | scan =>
    obtain ⟨⟨log, s₁⟩, hscan, h⟩ := bind_eq_ok.mp h
    cases h
    refine ⟨_, feedStep_scan hW hq hscan, fun _ hpolled => ?_, List.map_append⟩
    cases hpolled
  | poll readings =>
    obtain ⟨⟨log, net⟩, hpoll, h⟩ := bind_eq_ok.mp h
    cases h
    obtain ⟨hempty, htaken⟩ := feedStep_poll hW hq hpoll hended
    exact ⟨[], hempty, fun _ _ => rfl,
      by rw [FeedEvent.taken, htaken, List.map_nil, FeedEvent.produced, List.map_nil]⟩

theorem run_holds (calls : List FeedCall) {events : List FeedEvent} (hstart : FeedHolds queue s [])
    (hrun : runAll (feedStep W subscriber) calls s = .ok (events, s'))
    (hended : ∀ e ∈ events, e.Ended) :
    ∃ q, FeedHolds queue s' q ∧ events.flatMap FeedEvent.taken ++ q.map subscriber.handOver =
      (events.flatMap FeedEvent.produced).map subscriber.handOver := by
  obtain ⟨_, ⟨q, hq, rfl⟩, hbalance⟩ := runAll_fifo
    (fun s t => ∃ q, FeedHolds queue s q ∧ t = q.map subscriber.handOver)
      FeedEvent.Ended FeedEvent.taken
    (fun e => e.produced.map subscriber.handOver) (by
      rintro call s e s' _ ⟨q, hq, rfl⟩ hone hended
      obtain ⟨q', hq', -, hsame⟩ := feedStep_holds hW hq hone hended
      exact ⟨_, ⟨q', hq', rfl⟩, hsame⟩) calls ⟨[], hstart, rfl⟩ hrun hended
  rw [List.map_nil, List.nil_append] at hbalance
  exact ⟨q, hq, by rw [hbalance, List.map_flatMap]⟩

theorem runAll_taken (calls : List FeedCall) {events : List FeedEvent}
    {log : SubscriberLog} {last : Publishing τ} (hstart : FeedHolds queue s [])
    (hrun : runAll (feedStep W subscriber) calls s = .ok (events ++ [FeedEvent.polled log], last))
    (hended : ∀ e ∈ events ++ [FeedEvent.polled log], e.Ended) :
    (events ++ [FeedEvent.polled log]).flatMap FeedEvent.taken =
      ((events ++ [FeedEvent.polled log]).flatMap FeedEvent.produced).map subscriber.handOver := by
  obtain ⟨js, ks, s₁, rfl, hfirst, hlast⟩ := runAll_split hrun
  obtain ⟨q₁, hq₁, hbalance⟩ :=
    run_holds hW js hstart hfirst fun e he => hended e (List.mem_append_left _ he)
  cases ks with
  | nil => cases hlast
  | cons k ks =>
    obtain ⟨e, s₂, es, hone, -, heq⟩ := runAll_cons.mp hlast
    cases heq
    -- the last poll takes what was left
    obtain ⟨q₂, -, hempty, hfinal⟩ := feedStep_holds hW hq₁ hone
      (hended (.polled log) (List.mem_append_right _ (List.mem_singleton.mpr rfl)))
    rw [hempty log rfl, List.map_nil, List.append_nil] at hfinal
    rw [List.flatMap_append, List.flatMap_append, List.flatMap_singleton, List.flatMap_singleton,
      hfinal, List.map_append, ← List.append_assoc, hbalance]

theorem run_poll_ends (calls : List FeedCall) {events : List FeedEvent}
    (hstart : FeedHolds queue s [])
    (hrun : runAll (feedStep W subscriber) calls s = .ok (events, s'))
    (hended : ∀ e ∈ events, e.Ended) :
    ∃ n, ∀ readings, n < readings.length →
      ∃ log last, feedStep W subscriber (.poll readings) s' = .ok (.polled log, last) ∧
        log.finished = true := by
  obtain ⟨q, ⟨hunderWay, -, -⟩, -⟩ := run_holds hW calls hstart hrun hended
  refine ⟨q.length, fun readings hreadings => ?_⟩
  obtain ⟨log, net, hpoll, hfinished⟩ := Subscriber.poll_ends hW readings hunderWay hreadings
  exact ⟨log, _, bind_eq_ok.mpr ⟨_, hpoll, rfl⟩, hfinished⟩

end Feed

/-- What a run has passed to a handler. -/
def handed (handler : ℕ) (events : List FeedEvent) : List EventNotification :=
  (events.flatMap FeedEvent.taken).filterMap fun t =>
    if t.handler = some handler then t.notification else none

/-- What the scans of a run have produced for a subscription. -/
def produced (id : SubscriptionID) (events : List FeedEvent) : List EventNotification :=
  (events.flatMap FeedEvent.produced).filter (·.subscriptionId = id)

theorem filterMap_handOver {subscriber : Subscriber} {id : SubscriptionID} {handler : ℕ}
    (hhandler : subscriber.handlerOf id = some handler)
    (honly : ∀ id', subscriber.handlerOf id' = some handler → id' = id)
    (notifs : List EventNotification) :
    ((notifs.map subscriber.handOver).filterMap fun t =>
      if t.handler = some handler then t.notification else none) =
      (notifs.filter (·.subscriptionId = id)).map EventNotification.onWire := by
  induction notifs with
  | nil => rfl
  | cons notif notifs ih =>
    by_cases hid : notif.subscriptionId = id
    · have hmine : (subscriber.handOver notif).handler = some handler := by
        rw [Subscriber.handOver, hid, hhandler]
      rw [List.map_cons, List.filterMap_cons, if_pos hmine,
        List.filter_cons_of_pos (by simpa using hid), List.map_cons,
        ← ih]
      rfl
    · have hother : (subscriber.handOver notif).handler ≠ some handler := fun h => hid (honly _ h)
      rw [List.map_cons, List.filterMap_cons, if_neg hother,
        List.filter_cons_of_neg (by simpa using hid), ih]

/-- Over a lossless transport every poll ends, and every run that ends with a poll hands
each handler exactly what was produced for its subscription, in order and up to the
previous values. -/
theorem delivered_exactly {W : World τ} {queue : τ → List (List UInt8)}
    (hW : W.Lossless queue) {subscriber : Subscriber} {id : SubscriptionID}
    {handler : ℕ} (hhandler : subscriber.handlerOf id = some handler)
    (honly : ∀ id', subscriber.handlerOf id' = some handler → id' = id)
    {s : Publishing τ} (hempty : queue s.net = [])
    (hcount : ∀ sub ∈ s.publisher.subscriptions, sub.request.count.toNat ≤ 32763)
    (haside : ∀ source ∈ s.publisher.sources, source.Aside queue) :
    (∀ calls events last, runAll (feedStep W subscriber) calls s = .ok (events, last) →
      (∀ e ∈ events, e.Ended) →
      ∃ n, ∀ readings, n < readings.length →
        ∃ log last', feedStep W subscriber (.poll readings) last = .ok (.polled log, last') ∧
          log.finished = true) ∧
    ∀ calls events log last,
      runAll (feedStep W subscriber) calls s = .ok (events ++ [FeedEvent.polled log], last) →
      (∀ e ∈ events ++ [FeedEvent.polled log], e.Ended) →
      handed handler (events ++ [FeedEvent.polled log]) =
        (produced id (events ++ [FeedEvent.polled log])).map EventNotification.onWire := by
  have hstart : FeedHolds queue s [] := ⟨⟨hempty, List.forall_mem_nil _⟩, hcount, haside⟩
  refine ⟨fun calls events last => run_poll_ends hW calls hstart, ?_⟩
  intro calls events log last hrun hended
  rw [handed, runAll_taken hW calls hstart hrun hended]
  exact filterMap_handOver hhandler honly _

/-- A world that hands out the given readings and passes frames from the publisher to the
subscriber. -/
def piped : World (List UInt16 × List (List UInt8)) where
  send frame s := .ok (.ok, s.1, s.2 ++ [frame])
  receive _ s :=
    match s.2 with
    | [] => .ok (.fail .timeoutExpired, s.1, [])
    | frame :: frames => .ok (.value frame, s.1, frames)
  isConnected _ := true
  now s := (⟨0⟩, s)

theorem piped_lossless : piped.Lossless Prod.snd where
  connected _ := rfl
  send _ _ := ⟨_, rfl, rfl⟩
  receive_nil := by
    rintro timeout ⟨readings, frames⟩ rfl
    exact ⟨_, _, rfl, rfl⟩
  receive_cons := by
    rintro timeout ⟨readings, frames⟩ frame rest rfl
    exact ⟨_, rfl, rfl⟩
  now _ := rfl

/-- One register with two subscriptions, one to its changes and one to high values. -/
def watchedTwice (readings : List UInt16) : Publishing (List UInt16 × List (List UInt8)) where
  publisher := {
    sources := [{ start := 0, count := 1, reader := fun s => .ok ([s.1.headD 0], s.1.tail, s.2) }]
    subscriptions :=
      [⟨1, {}, ⟨0⟩⟩, ⟨2, { trigger := .onThreshold, thresholdHigh := some (.finite 100) }, ⟨0⟩⟩]
    nextSubId := 3 }
  net := (readings, [])

theorem delivered_exactly_twice : ∃ events log last,
    runAll (feedStep piped ⟨[(1, 7), (2, 8)]⟩)
      [.scan, .poll (List.replicate 2 ⟨0⟩), .scan, .scan, .poll (List.replicate 4 ⟨0⟩)]
        (watchedTwice [50, 120, 120]) = .ok (events ++ [FeedEvent.polled log], last) ∧
    handed 7 (events ++ [FeedEvent.polled log]) = [⟨1, 0, ⟨0⟩, [50], []⟩, ⟨1, 0, ⟨0⟩, [120], []⟩] ∧
    handed 7 (events ++ [FeedEvent.polled log]) =
      (produced 1 (events ++ [FeedEvent.polled log])).map EventNotification.onWire := by
  obtain ⟨events, log, last, hrun, hhanded, hended⟩ : ∃ events log last,
      runAll (feedStep piped ⟨[(1, 7), (2, 8)]⟩)
        [.scan, .poll (List.replicate 2 ⟨0⟩), .scan, .scan, .poll (List.replicate 4 ⟨0⟩)]
          (watchedTwice [50, 120, 120]) = .ok (events ++ [FeedEvent.polled log], last) ∧
      handed 7 (events ++ [FeedEvent.polled log]) =
        [⟨1, 0, ⟨0⟩, [50], []⟩, ⟨1, 0, ⟨0⟩, [120], []⟩] ∧
      ∀ e ∈ events ++ [FeedEvent.polled log], e.Ended := by
    refine ⟨[_, _, _, _], _, _, rfl, by decide, ?_⟩
    simp [FeedEvent.Ended]
  refine ⟨events, log, last, hrun, hhanded,
    (delivered_exactly piped_lossless rfl ?_ rfl ?_ ?_).2 _ _ _ _ hrun hended⟩
  · intro id' h
    by_contra hne
    by_cases htwo : (2 : SubscriptionID) = id'
    · simp [Subscriber.handlerOf, Ne.symm hne, htwo] at h
    · simp [Subscriber.handlerOf, Ne.symm hne, htwo] at h
  · decide
  · intro source hsource net values net' h
    rw [watchedTwice, List.mem_singleton] at hsource
    subst hsource
    cases h
    rfl

end ModbusPp

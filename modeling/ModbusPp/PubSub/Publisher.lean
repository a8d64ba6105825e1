import ModbusPp.Foundation.Run
import ModbusPp.Pipeline.RequestQueue
import ModbusPp.PubSub.Subscription
import ModbusPp.Transport.Transport

/-! The publisher (`publisher.cpp`). Its readers, its clock and its transport are
stateful operations on one world, so they may behave in any way, also between one
reader and the next. A publisher without a transport is one whose transport is
never connected. A scan returns, for every source and every subscription, the
notification it issued, if any; the source only returns their number. -/

namespace ModbusPp

open Foundation

/-- What the publisher and the subscriber use of the world. -/
structure World (τ : Type) extends Transport τ where
  isConnected : τ → Bool
  now : τ → Timestamp × τ

structure DataSource (τ : Type) where
  start : UInt16
  count : UInt16
  reader : τ → Checked (List UInt16 × τ)
  lastValues : List UInt16 := []
  hasBaseline : Bool := false

structure ActiveSubscription where
  id : SubscriptionID
  request : SubscriptionRequest
  lastNotified : Timestamp

structure Publisher (τ : Type) where
  sources : List (DataSource τ) := []
  subscriptions : List ActiveSubscription := []
  nextSubId : SubscriptionID := 1

/-- A publisher and the state of its world. -/
structure Publishing (τ : Type) where
  publisher : Publisher τ
  net : τ

/-- A notification that was issued, and whether the transport accepted its frame. -/
structure Issued where
  notification : EventNotification
  delivered : Bool

namespace DataSource

variable {τ : Type}

/-- The subscription starts inside the source. -/
def Covers (source : DataSource τ) (request : SubscriptionRequest) : Prop :=
  source.start ≤ request.startAddress ∧
    request.startAddress.toNat < source.start.toNat + source.count.toNat

instance (source : DataSource τ) (request : SubscriptionRequest) :
    Decidable (source.Covers request) :=
  inferInstanceAs (Decidable (_ ∧ _))

/-- The registers of a subscription among the values of the source. The end of the
range is cut to the values there are, its beginning is not. -/
def slice (source : DataSource τ) (request : SubscriptionRequest)
    (values : List UInt16) : Checked (List UInt16) :=
  let offset := request.startAddress.toNat - source.start.toNat
  (Span.ofList values).copy offset (min (offset + request.count.toNat) values.length)

/-- The registers of a subscription at the last scan, if there was one. -/
def previousSlice (source : DataSource τ) (request : SubscriptionRequest) : Checked (List UInt16) :=
  if source.hasBaseline then source.slice request source.lastValues else return []

end DataSource

/-- The test of an OnChange subscription. -/
def changed (deadBand : Double) (current previous : List UInt16) : Bool :=
  previous.isEmpty || (current.zip previous).any fun (c, p) => deadBand.below (registerDistance c p)

/-- The test of an OnThreshold subscription. -/
def outsideThresholds (request : SubscriptionRequest) (current : List UInt16) : Bool :=
  match current with
  | [] => false
  | value :: _ =>
    request.thresholdHigh.any (·.below value.toNat) ||
      request.thresholdLow.any (·.above value.toNat)

namespace Publisher

variable {τ : Type} (W : World τ)

def registerDataSource (start count : UInt16) (reader : τ → Checked (List UInt16 × τ))
    (p : Publisher τ) : Publisher τ :=
  { p with sources := p.sources ++ [{ start, count, reader }] }

def acceptSubscription (request : SubscriptionRequest) (s : Publishing τ) :
    Result SubscriptionID × Publishing τ :=
  let id := s.publisher.nextSubId
  let (now, net) := W.now s.net
  (.value id, ⟨{ s.publisher with
    subscriptions := s.publisher.subscriptions ++ [⟨id, request, now⟩]
    nextSubId := id + 1 }, net⟩)

def removeSubscription (id : SubscriptionID) (p : Publisher τ) : VoidResult × Publisher τ :=
  let kept := p.subscriptions.filter (·.id ≠ id)
  if kept.length = p.subscriptions.length then (.fail .illegalDataAddress, p)
  else (.ok, { p with subscriptions := kept })

def shouldNotify (sub : ActiveSubscription) (current previous : List UInt16)
    (net : τ) : Checked (Bool × τ) :=
  match sub.request.trigger with
  | .periodic =>
    match sub.request.interval with
    | none => return (false, net)
    | some interval => do
      let (now, net) := W.now net
      let elapsedUs ← signed (now.usSinceEpoch.toInt - sub.lastNotified.usSinceEpoch.toInt)
      let intervalUs ← signed (interval.toInt * 1000)
      return (decide (elapsedUs ≥ intervalUs), net)
  | .onChange => return (changed sub.request.deadBand current previous, net)
  | .onThreshold => return (outsideThresholds sub.request current, net)

/-- Push a notification if the transport is available. -/
def push (notif : EventNotification) (net : τ) : Checked (Bool × τ) :=
  if W.isConnected net then do
    let (sent, net) ← W.send notif.frame net
    return (sent.hasValue, net)
  else return (false, net)

/-- One turn of the inner loop of `scan_and_notify`. -/
def notifyOne (source : DataSource τ) (current : List UInt16) (sub : ActiveSubscription) (net : τ) :
    Checked ((Option Issued × ActiveSubscription) × τ) := do
  if ¬source.Covers sub.request then return ((none, sub), net)
  let slice ← source.slice sub.request current
  let prevSlice ← source.previousSlice sub.request
  let (notify, net) ← shouldNotify W sub slice prevSlice net
  if !notify then return ((none, sub), net)
  let (timestamp, net) := W.now net
  let notif : EventNotification :=
    ⟨sub.id, sub.request.startAddress, timestamp, slice, prevSlice⟩
  let (delivered, net) ← push W notif net
  let (lastNotified, net) := W.now net
  return ((some ⟨notif, delivered⟩, { sub with lastNotified }), net)

/-- One turn of the outer loop: read a source, look at every subscription, and make
the values read the new baseline. -/
def scanSource (source : DataSource τ) (s : List ActiveSubscription × τ) :
    Checked ((List (Option Issued) × DataSource τ) × List ActiveSubscription × τ) := do
  let (current, net) ← source.reader s.2
  let (outs, net) ← runAll (notifyOne W source current) s.1 net
  return ((outs.map Prod.fst, { source with lastValues := current, hasBaseline := true }),
    outs.map Prod.snd, net)

def scanAndNotify (s : Publishing τ) : Checked (List (List (Option Issued)) × Publishing τ) := do
  let (outs, subscriptions, net) ← runAll (scanSource W) s.publisher.sources
    (s.publisher.subscriptions, s.net)
  return (outs.map Prod.fst,
    ⟨{ s.publisher with sources := outs.map Prod.snd, subscriptions }, net⟩)

end Publisher

end ModbusPp

import ModbusPp.Core.Pdu
import ModbusPp.RegisterMap.BatchRequest

/-! Subscriptions and event notifications (`subscription.hpp`). A `double` is only
ever compared with a register value or with the distance of two of them, all of
which it represents exactly, so it is kept as what such a comparison can see. -/

namespace ModbusPp

open Foundation

/-- A `double`. -/
inductive Double
  | finite (q : ℚ)
  | infinity (negative : Bool)
  | nan
  deriving DecidableEq, Repr

namespace Double

/-- `d < x`. -/
def below (d : Double) (x : ℕ) : Bool :=
  match d with
  | .finite q => decide (q < x)
  | .infinity negative => negative
  | .nan => false

/-- `x < d`. -/
def above (d : Double) (x : ℕ) : Bool :=
  match d with
  | .finite q => decide ((x : ℚ) < q)
  | .infinity negative => !negative
  | .nan => false

/-- `x <= d`. -/
def atLeast (d : Double) (x : ℕ) : Bool :=
  match d with
  | .finite q => decide ((x : ℚ) ≤ q)
  | .infinity negative => !negative
  | .nan => false

end Double

/-- `std::abs` of the difference of two registers, as doubles. -/
def registerDistance (x y : UInt16) : ℕ := ((x.toNat : ℤ) - y.toNat).natAbs

abbrev SubscriptionID := UInt32

inductive Trigger
  | onChange
  | onThreshold
  | periodic
  deriving DecidableEq

structure SubscriptionRequest where
  startAddress : UInt16 := 0
  count : UInt16 := 1
  type : RegisterType := ⟨0⟩
  byteOrder : ByteOrder := ⟨0⟩
  trigger : Trigger := .onChange
  thresholdHigh : Option Double := none
  thresholdLow : Option Double := none
  interval : Option Int64 := none
  deadBand : Double := .finite 0
  deriving DecidableEq

structure EventNotification where
  subscriptionId : SubscriptionID
  startAddress : UInt16
  timestamp : Timestamp
  currentValues : List UInt16
  previousValues : List UInt16 := []
  deriving DecidableEq

namespace EventNotification

/-- `[sub_id:4][addr:2][reg_count:2][regs...]`. -/
def payload (notif : EventNotification) : List UInt8 :=
  let sid := notif.subscriptionId
  let rc := UInt16.ofNat notif.currentValues.length
  [((sid >>> 24) &&& 0xFF).toUInt8, ((sid >>> 16) &&& 0xFF).toUInt8, ((sid >>> 8) &&& 0xFF).toUInt8,
    (sid &&& 0xFF).toUInt8, hiByte notif.startAddress, loByte notif.startAddress, hiByte rc,
    loByte rc] ++
  registerBytes notif.currentValues

/-- The frame in which the notification is pushed. -/
def frame (notif : EventNotification) : List UInt8 :=
  (PDU.makeExtended { extFunctionCode := .eventNotification, timestamp := some notif.timestamp }
    notif.payload).serialize

end EventNotification

end ModbusPp

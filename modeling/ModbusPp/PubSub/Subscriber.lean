import ModbusPp.PubSub.Publisher

/-! The subscriber (`subscriber.cpp`). Its `poll` receives until the transport has
nothing more; whatever is not a notification is passed over. The loop need not end,
so it is followed for as many turns as it is given clock readings. -/

namespace ModbusPp

open Foundation

namespace EventNotification

/-- The notification in an event frame, not yet stamped, and the time in its header.
Registers that are announced and not there are left out. -/
def parse (pdu : PDU) : Option (Option Timestamp × EventNotification) :=
  match pdu.extHeader with
  | none => none
  | some hdr =>
    if hdr.extFunctionCode ≠ .eventNotification then none
    else match pdu.payload with
      | s3 :: s2 :: s1 :: s0 :: a1 :: a0 :: c1 :: c0 :: regs => some (hdr.timestamp, {
          subscriptionId :=
            (s3.toUInt32 <<< 24) ||| (s2.toUInt32 <<< 16) ||| (s1.toUInt32 <<< 8) ||| s0.toUInt32
          startAddress := word a1 a0
          timestamp := ⟨0⟩
          currentValues := (registersOf regs).take (word c1 c0).toNat })
      | _ => none

/-- The frame carries the notification, which still has to be stamped. -/
def InFrame (notif : EventNotification) (frame : List UInt8) : Prop :=
  ∃ pdu stamp, PDU.deserialize (.ofList frame) = .ok (.value pdu) ∧ parse pdu = some (stamp, notif)

end EventNotification

/-- The handlers, known by numbers, under their subscriptions. -/
structure Subscriber where
  handlers : List (SubscriptionID × ℕ) := []

/-- What `poll` made of a frame: the notification in it, and the handler it went to. -/
structure Taken where
  frame : List UInt8
  notification : Option EventNotification := none
  handler : Option ℕ := none
  deriving DecidableEq

/-- One `poll`: the frames it took, and whether it ended. -/
structure SubscriberLog where
  taken : List Taken := []
  finished : Bool
  deriving DecidableEq

namespace Subscriber

variable {τ : Type}

def onEvent (id : SubscriptionID) (handler : ℕ) (s : Subscriber) : Subscriber where
  handlers := (id, handler) :: s.handlers.filter (·.1 ≠ id)

def removeHandler (id : SubscriptionID) (s : Subscriber) : Subscriber where
  handlers := s.handlers.filter (·.1 ≠ id)

def handlerOf (s : Subscriber) (id : SubscriptionID) : Option ℕ :=
  (s.handlers.find? (·.1 = id)).map Prod.snd

/-- One turn of the loop, on the frame received. -/
def take (s : Subscriber) (now : Timestamp) (frame : List UInt8) : Checked Taken := do
  match ← PDU.deserialize (.ofList frame) with
  | .failure _ => return { frame }
  | .value pdu =>
    match EventNotification.parse pdu with
    | none => return { frame }
    | some (stamp, notif) =>
      let notif := { notif with timestamp := stamp.getD now }
      return ⟨frame, some notif, s.handlerOf notif.subscriptionId⟩

/-- The loop of `poll`, for at most as many turns as there are clock readings. -/
def pollLoop (T : Transport τ) (s : Subscriber) : List Timestamp → τ → Checked (SubscriberLog × τ)
  | [], net => return ({ finished := false }, net)
  | now :: readings, net => do
    let (recv, net) ← T.receive 0 net
    match recv with
    | .failure _ => return ({ finished := true }, net)
    | .value frame =>
      let taken ← s.take now frame
      let (log, net) ← pollLoop T s readings net
      return ({ log with taken := taken :: log.taken }, net)

def poll (W : World τ) (s : Subscriber) (readings : List Timestamp) (net : τ) :
    Checked (SubscriberLog × τ) :=
  if W.isConnected net then s.pollLoop W.toTransport readings net
  else return ({ finished := true }, net)

/-- The number of events processed. -/
def processed (log : SubscriberLog) : ℕ := log.taken.countP (·.notification.isSome)

/-- The frame carries a notification for which there is a handler. -/
def Awaits (s : Subscriber) (frame : List UInt8) : Prop :=
  ∃ notif : EventNotification, notif.InFrame frame ∧
    (s.handlerOf notif.subscriptionId).isSome = true

/-- The notification in the frame, stamped, went to its handler. -/
def Dispatched (s : Subscriber) (t : Taken) : Prop :=
  ∃ (notif : EventNotification) (timestamp : Timestamp) (handler : ℕ), notif.InFrame t.frame ∧
    s.handlerOf notif.subscriptionId = some handler ∧
    t.notification = some { notif with timestamp } ∧ t.handler = some handler

variable {T : Transport τ} {s : Subscriber} {net net' : τ} {log : SubscriberLog}
  {readings : List Timestamp}

theorem pollLoop_cons {now : Timestamp} :
    s.pollLoop T (now :: readings) net = .ok (log, net') ↔
      (∃ ec, T.receive 0 net = .ok (.failure ec, net') ∧ log = { finished := true }) ∨
      ∃ frame net₁ taken rest, T.receive 0 net = .ok (.value frame, net₁) ∧
        s.take now frame = .ok taken ∧
        s.pollLoop T readings net₁ = .ok (rest, net') ∧
        log = { rest with taken := taken :: rest.taken } := by
  constructor
  · intro h
    obtain ⟨⟨recv, net₁⟩, hrecv, h⟩ := bind_eq_ok.mp h
    cases recv with
    | failure ec =>
      cases h
      exact .inl ⟨ec, hrecv, rfl⟩
    | value frame =>
      obtain ⟨taken, htake, h⟩ := bind_eq_ok.mp h
      obtain ⟨⟨rest, net₂⟩, hrest, h⟩ := bind_eq_ok.mp h
      cases h
      exact .inr ⟨frame, net₁, taken, rest, hrecv, htake, hrest, rfl⟩
  · rintro (⟨ec, hrecv, rfl⟩ | ⟨frame, net₁, taken, rest, hrecv, htake, hrest, rfl⟩)
    · rw [pollLoop, hrecv]
      rfl
    · rw [pollLoop, hrecv, ok_bind]
      simp only [htake, hrest, ok_bind]
      rfl

/-- More readings change nothing for a loop that has ended. -/
theorem pollLoop_append (h : s.pollLoop T readings net = .ok (log, net'))
    (hfinished : log.finished = true) (more : List Timestamp) :
    s.pollLoop T (readings ++ more) net = .ok (log, net') := by
  induction readings generalizing net log with
  | nil =>
    cases h
    contradiction
  | cons now readings ih =>
    refine pollLoop_cons.mpr ?_
    rcases pollLoop_cons.mp h with hend | ⟨frame, net₁, taken, rest, hrecv, htake, hrest, rfl⟩
    · exact .inl hend
    · exact .inr ⟨frame, net₁, taken, rest, hrecv, htake, ih hrest hfinished, rfl⟩

theorem take_frame {now : Timestamp} {frame : List UInt8} {t : Taken}
    (h : s.take now frame = .ok t) :
    t.frame = frame := by
  obtain ⟨decoded, -, h⟩ := bind_eq_ok.mp h
  cases decoded with
  | failure ec =>
    cases h
    rfl
  | value pdu =>
    cases hparse : EventNotification.parse pdu with
    | none =>
      simp only [hparse] at h
      cases h
      rfl
    | some event =>
      simp only [hparse] at h
      cases h
      rfl

theorem take_dispatched {now : Timestamp} {frame : List UInt8} {t : Taken}
    (h : s.take now frame = .ok t) (hawaited : s.Awaits frame) : s.Dispatched t := by
  obtain ⟨notif, ⟨pdu, stamp, hdecode, hparse⟩, hhandler⟩ := hawaited
  obtain ⟨handler, hhandler⟩ := Option.isSome_iff_exists.mp hhandler
  simp only [take, hdecode, ok_bind, hparse] at h
  cases h
  exact ⟨notif, stamp.getD now, handler, ⟨pdu, stamp, hdecode, hparse⟩, hhandler, rfl, hhandler⟩

theorem awaits_of_dispatched {t : Taken} (h : s.Dispatched t) : s.Awaits t.frame := by
  obtain ⟨notif, timestamp, handler, hframe, hhandler, -, -⟩ := h
  exact ⟨notif, hframe, by rw [hhandler, Option.isSome_some]⟩

/-- The loop takes every frame that comes in, and hands on those that are awaited. -/
theorem pollLoop_spec (h : s.pollLoop T readings net = .ok (log, net')) :
    log.taken.map (·.frame) = T.incoming readings.length net ∧
      ∀ t ∈ log.taken, s.Dispatched t ↔ s.Awaits t.frame := by
  induction readings generalizing net log with
  | nil =>
    cases h
    exact ⟨rfl, nofun⟩
  | cons now readings ih =>
    rcases pollLoop_cons.mp h with ⟨ec, hrecv, rfl⟩ |
      ⟨frame, net₁, taken, rest, hrecv, htake, hrest, rfl⟩
    · simp [Transport.incoming, hrecv]
    · obtain ⟨hframes, hdispatched⟩ := ih hrest
      have hframe := take_frame htake
      refine ⟨?_, List.forall_mem_cons.mpr ⟨⟨awaits_of_dispatched, ?_⟩, hdispatched⟩⟩
      · simp [Transport.incoming, hrecv, hframe, hframes]
      · rw [hframe]
        exact take_dispatched htake

end Subscriber

end ModbusPp

import ModbusPp.PubSub.Delivery

/-! What `poll` makes of the frames it receives. Each frame is taken by itself. The previous
values of a notification are not on the wire, so they never arrive. A payload of eight bytes
or more is taken for a notification whatever its length: a short one has fewer registers
than it announces, and what is left over of a long one is ignored. -/

namespace ModbusPp

open Foundation

namespace EventNotification

/-- The payload of an event frame. -/
def payloadOf (frame : List UInt8) : Option (List UInt8) :=
  match PDU.deserialize (.ofList frame) with
  | .ok (.value pdu) =>
    if pdu.extHeader.any (·.extFunctionCode = .eventNotification) then some pdu.payload else none
  | _ => none

/-- The `reg_count` in a payload. -/
def declaredCount (payload : List UInt8) : ℕ := (word (payload.getD 6 0) (payload.getD 7 0)).toNat

/-- The payload is as long as its `reg_count` says. -/
def Consistent (payload : List UInt8) : Prop := payload.length = 8 + 2 * declaredCount payload

instance (payload : List UInt8) : Decidable (Consistent payload) :=
  inferInstanceAs (Decidable (_ = _))

theorem parse_registers {pdu : PDU} {stamp : Option Timestamp}
    {notif : EventNotification} {frame : List UInt8}
    (hdecode : PDU.deserialize (.ofList frame) = .ok (.value pdu))
    (h : parse pdu = some (stamp, notif)) :
    payloadOf frame = some pdu.payload ∧
      notif.currentValues.length = min (declaredCount pdu.payload)
        ((pdu.payload.length - 8) / 2) := by
  unfold parse at h
  cases hheader : pdu.extHeader with
  | none => simp [hheader] at h
  | some hdr =>
    simp only [hheader] at h
    split_ifs at h with hcode
    split at h
    · rename_i s3 s2 s1 s0 a1 a0 c1 c0 regs hpayload
      cases h
      have hevent : pdu.extHeader.any (·.extFunctionCode = .eventNotification) = true := by
        rw [hheader, Option.any_some]
        exact decide_eq_true (not_not.mp hcode)
      refine ⟨by rw [payloadOf, hdecode]; exact if_pos hevent, ?_⟩
      change ((registersOf regs).take (word c1 c0).toNat).length = _
      rw [hpayload, List.length_take, length_registersOf]
      rfl
    · cases h

end EventNotification

namespace Subscriber

variable {τ : Type} {W : World τ} {T : Transport τ} {s : Subscriber}
  {net net' : τ} {log : SubscriberLog}
  {readings : List Timestamp} {now : Timestamp} {frame : List UInt8} {t : Taken}

theorem take_handler (h : s.take now frame = .ok t) (hhandler : t.handler.isSome = true) :
    ∃ pdu stamp notif, PDU.deserialize (.ofList frame) = .ok (.value pdu) ∧
      EventNotification.parse pdu = some (stamp, notif) ∧
      (s.handlerOf notif.subscriptionId).isSome = true ∧
      t.notification = some { notif with timestamp := stamp.getD now } := by
  obtain ⟨decoded, hdecode, h⟩ := bind_eq_ok.mp h
  cases decoded with
  | failure ec =>
    cases h
    cases hhandler
  | value pdu =>
    cases hparse : EventNotification.parse pdu with
    | none =>
      simp only [hparse] at h
      cases h
      cases hhandler
    | some event =>
      simp only [hparse] at h
      cases h
      exact ⟨pdu, event.1, event.2, hdecode, hparse, hhandler, rfl⟩

theorem pollLoop_each (h : s.pollLoop T readings net = .ok (log, net')) :
    List.Forall₂ (fun frame t => ∃ now, s.take now frame = .ok t)
      (T.incoming readings.length net) log.taken := by
  induction readings generalizing net log with
  | nil =>
    cases h
    exact .nil
  | cons now readings ih =>
    rcases pollLoop_cons.mp h with ⟨ec, hrecv, rfl⟩ |
      ⟨frame, net₁, taken, rest, hrecv, htake, hrest, rfl⟩
    · simp [Transport.incoming, hrecv]
    · rw [List.length_cons, Transport.incoming, hrecv]
      exact .cons ⟨now, htake⟩ (ih hrest)

theorem pollLoop_taken (h : s.pollLoop T readings net = .ok (log, net')) (hmem : t ∈ log.taken) :
    t.frame ∈ T.incoming readings.length net ∧ ∃ now, s.take now t.frame = .ok t := by
  obtain ⟨k, hk⟩ := List.mem_iff_getElem?.mp hmem
  obtain ⟨frame, hframe, now, htake⟩ := Publisher.forall₂_at (pollLoop_each h).flip hk
  rw [take_frame htake]
  exact ⟨List.mem_of_getElem? hframe, now, htake⟩

/-! ### Faithful notifications -/

/-- In every poll that receives the frame of a notification that fits it, the handler gets
all of its fields but the previous values, so the notification itself exactly if there are
no previous values. -/
theorem poll_faithful_iff {notif : EventNotification} {handler : ℕ}
    (hfits : notif.currentValues.length ≤ 32763)
    (hhandler : s.handlerOf notif.subscriptionId = some handler)
    (hconnected : W.isConnected net = true)
    (h : s.poll W readings net = .ok (log, net'))
    (hreceived : notif.frame ∈ W.incoming readings.length net) :
    (∃ t ∈ log.taken, t.frame = notif.frame) ∧ ∀ t ∈ log.taken, t.frame = notif.frame →
      t.handler = some handler ∧ t.notification = some { notif with previousValues := [] } ∧
      (t.notification = some notif ↔ notif.previousValues = []) := by
  rw [poll, if_pos hconnected] at h
  constructor
  · obtain ⟨hframes, -⟩ := pollLoop_spec h
    rw [← hframes] at hreceived
    exact List.mem_map.mp hreceived
  · intro t hmem hframe
    obtain ⟨-, now, htake⟩ := pollLoop_taken h hmem
    rw [hframe, s.take_notification now hfits] at htake
    cases htake
    refine ⟨hhandler, rfl, ?_⟩
    rw [Option.some.injEq, EventNotification.onWire]
    constructor
    · exact fun heq => (congrArg EventNotification.previousValues heq).symm
    · intro hnone
      rw [← hnone]

theorem poll_faithful_first : ∃ log net',
    (⟨[(1, 7)]⟩ : Subscriber).poll piped [⟨0⟩, ⟨0⟩]
      ([], [(⟨1, 0, ⟨5⟩, [10], []⟩ : EventNotification).frame]) = .ok (log, net') ∧
    ∃ t ∈ log.taken, t.handler = some 7 ∧ t.notification = some ⟨1, 0, ⟨5⟩, [10], []⟩ := by
  obtain ⟨log, net', hpoll⟩ : ∃ log net', (⟨[(1, 7)]⟩ : Subscriber).poll piped [⟨0⟩, ⟨0⟩]
      ([], [(⟨1, 0, ⟨5⟩, [10], []⟩ : EventNotification).frame]) = .ok (log, net') := ⟨_, _, rfl⟩
  have hfits : (⟨1, 0, ⟨5⟩, [10], []⟩ : EventNotification).currentValues.length ≤ 32763 := by decide
  obtain ⟨⟨t, hmem, hframe⟩, hall⟩ :=
    poll_faithful_iff hfits rfl rfl hpoll (List.mem_singleton.mpr rfl)
  obtain ⟨hhandler, -, hiff⟩ := hall t hmem hframe
  exact ⟨log, net', hpoll, t, hmem, hhandler, hiff.mpr rfl⟩

/-- The second scan notifies 20 after 10, and the handler is told 20 and no previous value. -/
theorem previous_value_lost : ∃ registered events log last,
    runAll (Publisher.step piped)
      [.register 0 1 fun s => .ok ([s.1.headD 0], s.1.tail, s.2), .accept {},
      .accept { trigger := .onThreshold, thresholdHigh := some (.finite 100) }] ⟨{}, [10, 20], []⟩ =
        .ok (registered, watchedTwice [10, 20]) ∧
    runAll (feedStep piped ⟨[(1, 7)]⟩) [.scan, .scan, .poll (List.replicate 3 ⟨0⟩)]
      (watchedTwice [10, 20]) = .ok (events ++ [FeedEvent.polled log], last) ∧
    events.flatMap FeedEvent.produced = [⟨1, 0, ⟨0⟩, [10], []⟩, ⟨1, 0, ⟨0⟩, [20], [10]⟩] ∧
    log.taken.map (fun t => (t.handler, t.notification)) =
      [(some 7, some ⟨1, 0, ⟨0⟩, [10], []⟩), (some 7, some ⟨1, 0, ⟨0⟩, [20], []⟩)] :=
  ⟨_, [_, _], _, _, rfl, rfl, by decide, by decide⟩

/-! ### Malformed notifications -/

/-- Handlers are called for consistent payloads only, with all the registers announced, and
what becomes of a frame does not depend on the others. -/
structure Discerning (s : Subscriber) (frames : List (List UInt8))
    (log : SubscriberLog) : Prop where
  consistent : ∀ t ∈ log.taken, t.handler.isSome = true → ∃ payload notif,
    EventNotification.payloadOf t.frame = some payload ∧ EventNotification.Consistent payload ∧
      t.notification = some notif ∧
      notif.currentValues.length = EventNotification.declaredCount payload
  each : List.Forall₂ (fun frame t => ∃ now, s.take now frame = .ok t) frames log.taken

/-- Every poll calls handlers for consistent notifications only if and only if, of the frames
that it receives, each that has a notification with a handler has a consistent payload. -/
theorem malformed_skipped_iff (hconnected : W.isConnected net = true)
    (h : s.poll W readings net = .ok (log, net')) :
    s.Discerning (W.incoming readings.length net) log ↔
      ∀ frame ∈ W.incoming readings.length net, s.Awaits frame →
        ∃ payload, EventNotification.payloadOf frame = some payload ∧
          EventNotification.Consistent payload := by
  rw [poll, if_pos hconnected] at h
  obtain ⟨hframes, hdispatched⟩ := pollLoop_spec h
  constructor
  · rintro ⟨hconsistent, -⟩ frame hframe hawaits
    rw [← hframes] at hframe
    obtain ⟨t, hmem, rfl⟩ := List.mem_map.mp hframe
    obtain ⟨notif, timestamp, handler, -, -, -, hhandler⟩ := (hdispatched t hmem).mpr hawaits
    obtain ⟨payload, -, hpayload, hlength, -⟩ := hconsistent t hmem (by rw [hhandler]; rfl)
    exact ⟨payload, hpayload, hlength⟩
  · intro hall
    refine ⟨fun t hmem hhandler => ?_, pollLoop_each h⟩
    obtain ⟨hframe, now, htake⟩ := pollLoop_taken h hmem
    obtain ⟨pdu, stamp, notif, hdecode, hparse, hsome, hnotification⟩ := take_handler htake hhandler
    obtain ⟨payload, hpayload, hlength⟩ :=
      hall t.frame hframe ⟨notif, ⟨pdu, stamp, hdecode, hparse⟩, hsome⟩
    obtain ⟨hpayload', hregisters⟩ := EventNotification.parse_registers hdecode hparse
    obtain rfl := Option.some.inj (hpayload.symm.trans hpayload')
    refine ⟨_, _, hpayload, hlength, hnotification, ?_⟩
    change notif.currentValues.length = _
    rw [EventNotification.Consistent] at hlength
    omega

theorem malformed_skipped_truncated : ∃ log net',
    (⟨[(1, 7)]⟩ : Subscriber).poll piped [⟨0⟩, ⟨0⟩, ⟨0⟩]
      ([], [[0x6E, 1], (⟨1, 0, ⟨5⟩, [10, 11], []⟩ : EventNotification).frame]) = .ok (log, net') ∧
    log.taken.map (·.handler) = [none, some 7] ∧
    (⟨[(1, 7)]⟩ : Subscriber).Discerning
      [[0x6E, 1], (⟨1, 0, ⟨5⟩, [10, 11], []⟩ : EventNotification).frame] log := by
  obtain ⟨log, net', hpoll, hhandlers⟩ :
    ∃ log net', (⟨[(1, 7)]⟩ : Subscriber).poll piped [⟨0⟩, ⟨0⟩, ⟨0⟩]
      ([], [[0x6E, 1], (⟨1, 0, ⟨5⟩, [10, 11], []⟩ : EventNotification).frame]) = .ok (log, net') ∧
      log.taken.map (·.handler) = [none, some 7] := ⟨_, _, rfl, by decide⟩
  refine ⟨log, net', hpoll, hhandlers, (malformed_skipped_iff rfl hpoll).mpr ?_⟩
  intro frame hmem hawaits
  rcases List.mem_cons.mp hmem with rfl | hmem
  · obtain ⟨notif, ⟨pdu, stamp, hdecode, -⟩, -⟩ := hawaits
    cases hdecode
  · obtain rfl := List.mem_singleton.mp hmem
    exact ⟨_, rfl, by decide⟩

/-- An event frame with one register of the five it announces. -/
def shortEvent : List UInt8 :=
  (PDU.makeExtended { extFunctionCode := .eventNotification }
    [0, 0, 0, 1, 0, 0, 0, 5, 0, 7]).serialize

/-- Its handler is called with that register. -/
theorem short_event_handled : ∃ log net',
    (⟨[(1, 7)]⟩ : Subscriber).poll piped [⟨0⟩, ⟨0⟩] ([], [shortEvent]) = .ok (log, net') ∧
    log.taken.map (fun t => (t.frame, t.handler, t.notification.map (·.currentValues))) =
      [(shortEvent, some 7, some [7])] ∧
    EventNotification.payloadOf shortEvent = some [0, 0, 0, 1, 0, 0, 0, 5, 0, 7] ∧
    EventNotification.declaredCount [0, 0, 0, 1, 0, 0, 0, 5, 0, 7] = 5 ∧
    ¬EventNotification.Consistent [0, 0, 0, 1, 0, 0, 0, 5, 0, 7] :=
  ⟨_, _, rfl, by decide, by decide, by decide, by decide⟩

end Subscriber

end ModbusPp

import ModbusPp.Client.LateAnswers
import ModbusPp.Discovery.Scanner

/-! Late devices. Each device answers the requests that carry its unit id, with its own
unit id, but when it likes: the receive of the probe may have given up by then. The next
probe takes the answer for that of its own device, so a device that is not there is found
in the place of one that was slow. -/

namespace ModbusPp

open Foundation

/-- The bus that a scanner looks at, and the queue from it. Entry `k` of the schedule is
what the devices try to send while the `k`-th of the coming receives waits; what carries
another unit id than the request it answers is not sent. A send has the next of the given
results, success when there are none left. -/
structure Bus where
  requests : List (List UInt8) := []
  queue : List Reply := []
  received : List Reply := []
  sends : List VoidResult := []
  schedule : List (List Reply)
  clock : List Timestamp := []

namespace Bus

/-- The unit id of a frame. -/
def unitOf (frame : List UInt8) : Option UInt8 := frame[6]?

def send (frame : List UInt8) (p : Bus) : VoidResult × Bus :=
  let sendResult := p.sends.headD .ok
  (sendResult, { p with
    sends := p.sends.tail
    requests := if sendResult.hasValue then p.requests ++ [frame] else p.requests })

/-- The reply comes from the device that its request is addressed to. -/
def Answer (p : Bus) (r : Reply) : Prop :=
  ∃ request, p.requests[r.request]? = some request ∧ unitOf r.frame = unitOf request

def answer (p : Bus) (r : Reply) : Bus :=
  match p.requests[r.request]? with
  | some request =>
      if unitOf r.frame = unitOf request then { p with queue := p.queue ++ [r] } else p
  | none => p

/-- The answers that come in while a receive waits. -/
def arrive (p : Bus) : Bus :=
  { (p.schedule.headD []).foldl answer p with schedule := p.schedule.tail }

def receive (p : Bus) : Result (List UInt8) × Bus :=
  match p.arrive.queue with
  | [] => (.fail .timeoutExpired, p.arrive)
  | r :: rest =>
      (.value r.frame, { p.arrive with queue := rest, received := p.arrive.received ++ [r] })

def world : World Bus where
  send frame p := .ok (p.send frame)
  receive _ p := .ok p.receive
  isConnected _ := true
  now p := (p.clock.headD ⟨0⟩, { p with clock := p.clock.tail })

/-- Everything in the queue and everything received is an answer of the right device. -/
def Sound (p : Bus) : Prop := ∀ r, r ∈ p.queue ∨ r ∈ p.received → p.Answer r

/-- A later state of the bus. -/
structure Later (p q : Bus) : Prop where
  requests : p.requests <+: q.requests
  received : p.received <+: q.received
  sound : p.Sound → q.Sound

theorem Later.trans {p q r : Bus} (h : p.Later q) (h' : q.Later r) : p.Later r :=
  ⟨h.requests.trans h'.requests, h.received.trans h'.received, fun hp => h'.sound (h.sound hp)⟩

theorem request_later {requests requests' : List (List UInt8)}
    (hlater : requests <+: requests') {k : ℕ} {frame : List UInt8}
    (h : requests[k]? = some frame) : requests'[k]? = some frame := by
  obtain ⟨rest, rfl⟩ := hlater
  rw [List.getElem?_append_left (List.getElem?_eq_some_iff.mp h).1, h]

theorem Answer.later {p q : Bus} {r : Reply} (h : p.Answer r)
    (hlater : p.requests <+: q.requests) : q.Answer r := by
  obtain ⟨request, hrequest, hunit⟩ := h
  exact ⟨request, request_later hlater hrequest, hunit⟩

theorem send_later (frame : List UInt8) (p : Bus) : p.Later (p.send frame).2 := by
  have hrequests : p.requests <+: (p.send frame).2.requests := by
    unfold send
    dsimp only
    split_ifs
    · exact List.prefix_append _ _
    · exact List.prefix_refl _
  exact ⟨hrequests, List.prefix_refl _, fun hsound r hr => (hsound r hr).later hrequests⟩

theorem now_later (p : Bus) : p.Later (world.now p).2 :=
  ⟨List.prefix_refl _, List.prefix_refl _, fun hsound => hsound⟩

theorem answers_keep (replies : List Reply) (p : Bus) :
    (replies.foldl answer p).requests = p.requests ∧
    (replies.foldl answer p).received = p.received ∧
      (p.Sound → (replies.foldl answer p).Sound) := by
  induction replies generalizing p with
  | nil => exact ⟨rfl, rfl, fun h => h⟩
  | cons r replies ih =>
    obtain ⟨hrequests, hreceived, hsound⟩ := ih (p.answer r)
    have hone : (p.answer r).requests = p.requests ∧ (p.answer r).received = p.received ∧
        (p.Sound → (p.answer r).Sound) := by
      unfold answer
      split
      · rename_i request hrequest
        split_ifs with hunit
        · refine ⟨rfl, rfl, fun hp r' hr' => ?_⟩
          rw [List.mem_append, List.mem_singleton, or_right_comm] at hr'
          rcases hr' with hold | rfl
          · exact hp r' hold
          · exact ⟨request, hrequest, hunit⟩
        · exact ⟨rfl, rfl, fun h => h⟩
      · exact ⟨rfl, rfl, fun h => h⟩
    exact ⟨hrequests.trans hone.1, hreceived.trans hone.2.1, fun hp => hsound (hone.2.2 hp)⟩

theorem arrive_keep (p : Bus) :
    p.arrive.requests = p.requests ∧ p.arrive.received = p.received ∧ (p.Sound → p.arrive.Sound) :=
  answers_keep (p.schedule.headD []) p

theorem receive_later (p : Bus) : p.Later p.receive.2 := by
  obtain ⟨hrequests, hreceived, hsound⟩ := arrive_keep p
  unfold receive
  split
  · exact ⟨hrequests ▸ List.prefix_refl _, hreceived ▸ List.prefix_refl _, hsound⟩
  · rename_i r rest hqueue
    refine ⟨hrequests ▸ List.prefix_refl _, hreceived ▸ List.prefix_append _ _, fun hp r' hr' => ?_⟩
    refine hsound hp r' ?_
    rw [List.mem_append, List.mem_singleton] at hr'
    rw [hqueue, List.mem_cons]
    tauto

theorem world_send {frame : List UInt8} {p p' : Bus} {sendResult : VoidResult}
    (h : world.send frame p = .ok (sendResult, p')) :
    p.send frame = (sendResult, p') ∧ p.Later p' := by
  have hsend : p.send frame = (sendResult, p') := Except.ok.inj h
  have hlater := send_later frame p
  rw [hsend] at hlater
  exact ⟨hsend, hlater⟩

theorem world_receive {timeout : ℕ} {p p' : Bus} {recvResult : Result (List UInt8)}
    (h : world.receive timeout p = .ok (recvResult, p')) :
    p.receive = (recvResult, p') ∧ p.Later p' := by
  have hreceive : p.receive = (recvResult, p') := Except.ok.inj h
  have hlater := receive_later p
  rw [hreceive] at hlater
  exact ⟨hreceive, hlater⟩

/-- Once `frame` is sent, the first frame that a receive finds is an answer to it. -/
def Prompt (frame : List UInt8) (p : Bus) : Prop :=
  (p.send frame).1.hasValue = true → ∀ r, (p.send frame).2.arrive.queue.head? = some r →
    r.request = p.requests.length

end Bus

namespace Scanner

variable {config : ScannerConfig} {unitId : UInt8} {p p' : Bus}

/-- What a device must have done to be in the result. -/
structure Genuine (p : Bus) (info : DeviceInfo) : Prop where
  responded : ∃ r ∈ p.received, Bus.unitOf r.frame = some info.unitId
  discovered : info.supportsExtended = true → ∃ r ∈ p.received,
    Bus.unitOf r.frame = some info.unitId ∧
    p.requests[r.request]? = some (discoverFrame info.unitId)

theorem Genuine.later {info : DeviceInfo} (h : Genuine p info)
    (hlater : p.Later p') : Genuine p' info where
  responded := by
    obtain ⟨r, hr, hunit⟩ := h.responded
    exact ⟨r, hlater.received.subset hr, hunit⟩
  discovered := by
    intro hext
    obtain ⟨r, hr, hunit, hrequest⟩ := h.discovered hext
    exact ⟨r, hlater.received.subset hr, hunit, Bus.request_later hlater.requests hrequest⟩

theorem asked_later {timeout : ℕ} {frame bytes : List UInt8}
    (h : Asked Bus.world timeout frame p bytes p') :
    p.Later p' := by
  obtain ⟨sendResult, p₁, hsend, -, hreceive⟩ := h
  exact (Bus.world_send hsend).2.trans (Bus.world_receive hreceive).2

theorem asked_prompt {timeout : ℕ} {frame bytes : List UInt8} (hsound : p.Sound)
    (hprompt : p.Prompt frame) (h : Asked Bus.world timeout frame p bytes p') :
    ∃ r ∈ p'.received, Bus.unitOf r.frame = Bus.unitOf frame ∧
      p'.requests[r.request]? = some frame := by
  have hlater := asked_later h
  obtain ⟨sendResult, p₁, hsend, hvalue, hreceive⟩ := h
  replace hsend := (Bus.world_send hsend).1
  replace hreceive := (Bus.world_receive hreceive).1
  have hrequests : p₁.requests = p.requests ++ [frame] := by
    have hresult : (p.send frame).1 = sendResult := by rw [hsend]
    have hstate : (p.send frame).2 = p₁ := by rw [hsend]
    rw [← hstate, Bus.send]
    exact if_pos (by rw [← hvalue, ← hresult]; rfl)
  unfold Bus.receive at hreceive
  split at hreceive
  · simp [Result.fail] at hreceive
  · rename_i r rest hqueue
    simp only [Prod.mk.injEq, Result.value.injEq] at hreceive
    obtain ⟨-, rfl⟩ := hreceive
    have hnumber : r.request = p.requests.length := by
      rw [Bus.Prompt, hsend] at hprompt
      exact hprompt hvalue r (by rw [hqueue]; rfl)
    have hmem : r ∈ p₁.arrive.received ++ [r] := List.mem_append_right _ List.mem_cons_self
    have hrequest : p₁.arrive.requests[r.request]? = some frame := by
      rw [(Bus.arrive_keep p₁).1, hrequests, hnumber, List.getElem?_concat_length]
    obtain ⟨request, hrequest', hunit⟩ := hlater.sound hsound r (.inr hmem)
    rw [hrequest, Option.some.injEq] at hrequest'
    exact ⟨r, hmem, by rw [hunit, hrequest'], hrequest⟩

/-- Nothing is in the way of the two answers that the probe of the unit waits for. -/
def OwnFirst (config : ScannerConfig) (unitId : UInt8) (p : Bus) : Prop :=
  p.Prompt (probeFrame unitId) ∧
  ∀ bytes p₁, Asked Bus.world config.scanTimeout (probeFrame unitId) p bytes p₁ →
    (Bus.world.now p₁).2.Prompt (discoverFrame unitId)

theorem probe_genuine {result : Result DeviceInfo} (hsound : p.Sound)
    (hown : OwnFirst config unitId p) (h : probe Bus.world config unitId p = .ok (result, p')) :
    p.Later p' ∧ ∀ info, found result = some info → Genuine p' info := by
  obtain ⟨hlater, hfound⟩ := probe_cases Bus.Later (fun _ _ _ h h' => h.trans h')
    (fun _ _ _ _ _ h => (Bus.world_send h).2) (fun _ _ _ _ h => (Bus.world_receive h).2)
    Bus.now_later h
  refine ⟨hlater, ?_⟩
  intro info hinfo
  obtain rfl : result = .value info := by
    cases result with
    | failure ec => cases hinfo
    | value info' =>
      cases hinfo
      rfl
  obtain ⟨rfl, answer, p₁, hasked, hrest, hext⟩ := hfound info rfl
  obtain ⟨r, hr, hunit, -⟩ := asked_prompt hsound hown.1 hasked
  refine ⟨⟨r, hrest.received.subset hr, hunit⟩, ?_⟩
  intro hsupports
  obtain ⟨answer', hasked'⟩ := hext hsupports
  have hsound₁ := (Bus.now_later p₁).sound ((asked_later hasked).sound hsound)
  obtain ⟨r', hr', hunit', hrequest⟩ := asked_prompt hsound₁ (hown.2 answer p₁ hasked) hasked'
  exact ⟨r', hr', hunit', hrequest⟩

theorem probes_genuine (units : List UInt8) {results : List (Result DeviceInfo)} (hsound : p.Sound)
    (hown : Guarded (probe Bus.world config) (OwnFirst config) units p)
    (h : runAll (probe Bus.world config) units p = .ok (results, p')) :
    p.Later p' ∧ ∀ info ∈ results.filterMap found, Genuine p' info := by
  induction units generalizing p results with
  | nil =>
    cases h
    exact ⟨⟨List.prefix_refl _, List.prefix_refl _, fun h => h⟩, List.forall_mem_nil _⟩
  | cons unitId units ih =>
    obtain ⟨result, p₁, results', hfirst, hothers, rfl⟩ := runAll_cons.mp h
    obtain ⟨hlater₁, hgenuine⟩ := probe_genuine hsound hown.1 hfirst
    obtain ⟨hlater, hrest⟩ := ih (hlater₁.sound hsound) (hown.2 result p₁ hfirst) hothers
    refine ⟨hlater₁.trans hlater, ?_⟩
    intro info hinfo
    rw [List.filterMap_cons] at hinfo
    cases hfound : found result with
    | none =>
      rw [hfound] at hinfo
      exact hrest info hinfo
    | some info' =>
      rw [hfound] at hinfo
      rcases List.mem_cons.mp hinfo with rfl | hinfo
      · exact (hgenuine info hfound).later hlater
      · exact hrest info hinfo

/-- In every scan in which no probe finds a late answer in its way, every device of the
result has responded, and one with extended capabilities has answered the discover frame. -/
theorem scan_genuine {bus : Bus} {devices : List DeviceInfo} (hsound : bus.Sound)
    (hown : Guarded (probe Bus.world config) (OwnFirst config) config.units bus)
    (h : scan Bus.world config bus = .ok (devices, p')) : ∀ info ∈ devices, Genuine p' info := by
  obtain ⟨⟨results, p₁⟩, hprobes, h⟩ := bind_eq_ok.mp h
  cases h
  exact (probes_genuine config.units hsound hown hprobes).2

theorem sound_start (schedule : List (List Reply)) : Bus.Sound { schedule } := by
  intro r hr
  rcases hr with hr | hr
  · cases hr
  · cases hr

/-- A device that answers both frames at once. -/
theorem scan_genuine_prompt : ∃ bus,
    scan Bus.world { rangeStart := 5, rangeEnd := 5 }
      { schedule := [[⟨0, [0, 5, 0, 0, 0, 5, 5, 3, 2, 0, 7]⟩],
      [⟨1, [1, 5, 0, 0, 0, 14, 5, 0x6E, 1, 0, 0, 0, 0, 9, 0, 4, 0, 0, 0, 0x3F]⟩]] } =
      .ok ([⟨5, true, 1, ⟨0⟩, ⟨0x3F⟩⟩], bus) ∧
    Genuine bus ⟨5, true, 1, ⟨0⟩, ⟨0x3F⟩⟩ := by
  obtain ⟨bus, hscan⟩ : ∃ bus,
      scan Bus.world { rangeStart := 5, rangeEnd := 5 }
        { schedule := [[⟨0, [0, 5, 0, 0, 0, 5, 5, 3, 2, 0, 7]⟩],
        [⟨1, [1, 5, 0, 0, 0, 14, 5, 0x6E, 1, 0, 0, 0, 0, 9, 0, 4, 0, 0, 0, 0x3F]⟩]] } =
        .ok ([⟨5, true, 1, ⟨0⟩, ⟨0x3F⟩⟩], bus) := ⟨_, rfl⟩
  refine ⟨bus, hscan, scan_genuine (sound_start _) ?_ hscan _ List.mem_cons_self⟩
  refine ⟨⟨?_, ?_⟩, fun _ _ _ => trivial⟩
  · rintro - r ⟨⟩
    rfl
  · rintro bytes p₁ ⟨sendResult, q, ⟨⟩, -, ⟨⟩⟩ - r ⟨⟩
    rfl

/-- Unit 1 answers after its probe has given up: unit 2 is found, which is not there. -/
theorem absent_device_found : ∃ bus,
    scan Bus.world { rangeStart := 1, rangeEnd := 2 }
      { schedule := [[], [⟨0, [0, 1, 0, 0, 0, 5, 1, 3, 2, 0, 7]⟩]] } =
      .ok ([{ unitId := 2, discoveredAt := ⟨0⟩ }], bus) ∧
    ¬Genuine bus { unitId := 2, discoveredAt := ⟨0⟩ } := by
  refine ⟨_, rfl, fun h => ?_⟩
  obtain ⟨r, hr, hunit⟩ := h.responded
  cases hr with
  | head => cases hunit
  | tail _ hr => cases hr

end Scanner

end ModbusPp

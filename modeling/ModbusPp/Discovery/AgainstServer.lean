import ModbusPp.Client.PushedFrames
import ModbusPp.Discovery.ScanLoop

/-! A scan of the units behind the event loop of a server. A probe finds its unit if any
frame comes, so a notification that the publisher tells makes a unit appear that is not
there; the units that the server answers for are found in any case. -/

namespace ModbusPp

open Foundation

variable {σ τ : Type}

/-- The world of whoever is at the other end of the event loop. -/
def Server.facingWorld (server : Server σ) (W peer : World τ) (extra : ℕ) : World (Facing σ τ) where
  toTransport := server.facing W peer.toTransport extra
  isConnected s := peer.isConnected s.serving.net.net
  now s := ((peer.now s.serving.net.net).1, { s with
    serving := {
      s.serving with net := { s.serving.net with net := (peer.now s.serving.net.net).2 } } })

namespace Scanner

/-- The server answers the probe of the unit. -/
def Real (server : Server σ) (unitId : UInt8) : Prop :=
  server.Addressed unitId ∧ server.readHandler.isSome = true

instance (server : Server σ) (unitId : UInt8) : Decidable (Real server unitId) :=
  inferInstanceAs (Decidable (_ ∧ _))

/-- The frame does not make a device an extended one. -/
def Plain (frame : List UInt8) : Prop :=
  ∀ info info', detectExtended info frame = .ok info' → info' = info

theorem plain_notification (notif : EventNotification) : Plain notif.frame := by
  intro info info' h
  rw [detectExtended, unwrapTcp_notification] at h
  cases h
  rfl

theorem deserialize_standard {raw : Span UInt8} {byte : UInt8} {pdu : PDU}
    (hread : raw.read 0 = .ok byte) (hfc : ¬(⟨byte⟩ : FunctionCode).IsExtended)
    (h : PDU.deserialize raw = .ok (.value pdu)) : pdu.extHeader = none := by
  by_cases hsize : raw.size < 1
  · rw [PDU.deserialize, if_pos hsize] at h
    cases h
  · simp only [PDU.deserialize, if_neg hsize, hread, ok_bind, if_pos hfc] at h
    obtain ⟨data, -, h⟩ := bind_eq_ok.mp h
    cases h
    rfl

theorem plain_response (unitId : UInt8) {fc : FunctionCode} (hfc : ¬fc.IsExtended)
    (data : List UInt8) (txnId : UInt16) :
    Plain (FrameCodec.wrapTcp unitId (.makeStandard fc data) txnId) := by
  intro info info' h
  obtain ⟨unwrapped, hunwrap, h⟩ := bind_eq_ok.mp h
  cases unwrapped with
  | failure ec =>
    cases h
    rfl
  | value decoded =>
    obtain ⟨unit, pdu, txnId'⟩ := decoded
    have hpdu := (FrameCodec.unwrapTcp_value hunwrap).2
    simp only [deserialize_standard rfl hfc hpdu, Option.any_none, Bool.false_eq_true,
      if_false] at h
    cases h
    rfl

theorem unwrapTcp_probeFrame (unitId : UInt8) : FrameCodec.unwrapTcp (.ofList (probeFrame unitId)) =
    .ok (.value (unitId, .makeStandard .readHoldingRegisters [0, 0, 0, 1], unitId.toUInt16)) :=
  FrameCodec.unwrapTcp_standard_of_lt (by decide) _ _ (by decide)

theorem unwrapTcp_discoverFrame (unitId : UInt8) : ∃ pdu, pdu.functionCode = .extended ∧
    FrameCodec.unwrapTcp (.ofList (discoverFrame unitId)) =
      .ok (.value (unitId, pdu, unitId.toUInt16 + 256)) := by
  refine ⟨(PDU.makeExtended { extFunctionCode := .discover } []), rfl, ?_⟩
  rw [discoverFrame, FrameCodec.unwrapTcp_wrapTcp _ _ _ (by decide)]
  rfl

theorem supports_probe (server : Server σ) :
    server.Supports (.makeStandard .readHoldingRegisters [0, 0, 0, 1]) ↔
      server.readHandler.isSome = true := by
  simp [Server.Supports, PDU.makeStandard, FunctionCode.readHoldingRegisters,
    FunctionCode.writeSingleRegister, FunctionCode.writeMultipleRegisters]

/-- What waits at the other end of a server that has nothing to do. -/
structure Waits (queues : τ → Option Queues) (s : Facing σ τ)
    (backlog : List (List UInt8)) : Prop where
  looks : ∀ source ∈ s.serving.publisher.sources, source.LooksOn queues
  queues : queues s.serving.net.net = some ⟨[], backlog⟩
  plain : ∀ frame ∈ backlog, Plain frame

section scan

variable {W peer : World τ} {arrive : List UInt8 → τ → τ} {queues : τ → Option Queues}
  {server : Server σ} {extra : ℕ}
  {config : ScannerConfig} {s s' : Facing σ τ} {backlog : List (List UInt8)}

theorem Waits.now (hnow : ∀ net, queues (peer.now net).2 = queues net)
    (hwaits : Waits queues s backlog) :
    Waits queues ((server.facingWorld W peer extra).now s).2 backlog :=
  ⟨hwaits.looks, (hnow _).trans hwaits.queues, hwaits.plain⟩

theorem send_facing (hpeer : peer.toTransport.Faces queues) {frame : List UInt8}
    {sent : VoidResult} {s₁ : Facing σ τ} (hwaits : Waits queues s backlog)
    (hsend : (server.facingWorld W peer extra).send frame s = .ok (sent, s₁)) :
    sent.hasValue = true := by
  obtain ⟨net, hsend', -⟩ := hpeer.send frame s.serving.net.net _ hwaits.queues
  obtain ⟨⟨r, net₁⟩, hsent, h⟩ := bind_eq_ok.mp hsend
  rw [hsend'] at hsent
  cases hsent
  cases h
  rfl

/-- A frame goes to the server, and the other end receives: what the server answers and
tells goes behind the backlog, and the first frame of all is taken. -/
theorem ask_facing (hW : W.Linked arrive queues) (hpeer : peer.toTransport.Faces queues)
    {timeout : ℕ} {frame : List UInt8} {unit : UInt8} {request : PDU}
    {txnId : UInt16} {sent : VoidResult} {recv : Result (List UInt8)}
    {s₁ : Facing σ τ} (hwaits : Waits queues s backlog)
    (hunwrap : FrameCodec.unwrapTcp (.ofList frame) = .ok (.value (unit, request, txnId)))
    (hsend : (server.facingWorld W peer extra).send frame s = .ok (sent, s₁))
    (hreceive : (server.facingWorld W peer extra).receive timeout s₁ = .ok (recv, s')) :
    ∃ answer pushes frames, server.Responds unit request txnId answer ∧
      Waits queues s' frames.tail ∧
      s'.pushes = s.pushes ++ pushes ∧ (∀ bytes ∈ frames, Plain bytes) ∧
      frames.length = backlog.length + answer.toList.length +
        (pushes.flatMap Issued.frames).length ∧
      ((∃ ec, recv = .failure ec ∧ frames = []) ∨ ∃ bytes rest, recv = .value bytes ∧
        frames = bytes :: rest) := by
  obtain ⟨net, hsend', hqueues₁⟩ := hpeer.send frame s.serving.net.net _ hwaits.queues
  obtain ⟨⟨r, net₁⟩, hsent, h⟩ := bind_eq_ok.mp hsend
  rw [hsend'] at hsent
  cases hsent
  cases h
  obtain ⟨hlooks', answer, pushes, frames, hresponds, hpushes, hframes, hqueues', -, hrecv⟩ :=
    facing_receive hW hpeer
      (s := ⟨⟨s.serving.publisher, { s.serving.net with net }⟩, s.pushes, s.consumed⟩)
      hwaits.looks hqueues₁ hunwrap hreceive
  have hplain : ∀ frame ∈ frames, Plain frame := by
    rw [hframes]
    intro frame hframe
    rw [List.mem_append, List.mem_append, Option.mem_toList] at hframe
    rcases hframe with (hold | hanswer) | hpush
    · exact hwaits.plain frame hold
    · obtain ⟨fc, data, hfc, rfl⟩ := hresponds.standard frame hanswer
      exact plain_response _ hfc _ _
    · obtain ⟨i, -, hpush⟩ := List.mem_flatMap.mp hpush
      rw [Issued.frames] at hpush
      split_ifs at hpush
      · obtain rfl := List.mem_singleton.mp hpush
        exact plain_notification _
      · cases hpush
  exact ⟨answer, pushes, frames, hresponds,
    ⟨hlooks', hqueues', fun frame hframe => hplain frame (List.mem_of_mem_tail hframe)⟩,
    hpushes, hplain,
    by rw [hframes, List.length_append, List.length_append], hrecv⟩

/-- A real unit is found, and for one that is not, a frame is gone from those that waited
or were told. -/
theorem probe_facing (hW : W.Linked arrive queues) (hpeer : peer.toTransport.Faces queues)
    (hnow : ∀ net, queues (peer.now net).2 = queues net) {unitId : UInt8}
    {result : Result DeviceInfo} (hwaits : Waits queues s backlog)
    (h : probe (server.facingWorld W peer extra) config unitId s = .ok (result, s')) :
    ∃ pushes backlog', Waits queues s' backlog' ∧ s'.pushes = s.pushes ++ pushes ∧
      (∀ info, result = .value info → info.unitId = unitId ∧ info.supportsExtended = false) ∧
      (Real server unitId → (found result).isSome = true) ∧
      backlog'.length + ((found result).toList.filter fun _ => ¬Real server unitId).length ≤
        backlog.length + (pushes.flatMap Issued.frames).length := by
  obtain ⟨⟨sent, s₁⟩, hsend, h⟩ := bind_eq_ok.mp h
  simp only [send_facing hpeer hwaits hsend, Bool.not_true, Bool.false_eq_true, if_false] at h
  obtain ⟨⟨recv, s₂⟩, hreceive, h⟩ := bind_eq_ok.mp h
  obtain ⟨answer, pushes, frames, hresponds, hwaits₁, hpushes, -, hlen, hrecv⟩ :=
    ask_facing hW hpeer hwaits (unwrapTcp_probeFrame unitId) hsend hreceive
  have hreal : answer.isSome = true ↔ Real server unitId :=
    hresponds.isSome_iff.trans (and_congr_right fun _ => supports_probe server)
  obtain ⟨ec, rfl, rfl⟩ | ⟨bytes, rest, rfl, rfl⟩ := hrecv
  · cases h
    refine ⟨pushes, [], hwaits₁, hpushes, nofun, ?_, Nat.zero_le _⟩
    intro hyes
    obtain ⟨answer, rfl⟩ := Option.isSome_iff_exists.mp (hreal.mpr hyes)
    simp at hlen
    omega
  · obtain ⟨⟨extSent, s₃⟩, hextSend, h⟩ := bind_eq_ok.mp h
    have hwaits₂ : Waits queues ((server.facingWorld W peer extra).now s₂).2 rest :=
      hwaits₁.now hnow
    simp only [send_facing hpeer hwaits₂ hextSend, Bool.not_true, Bool.false_eq_true, if_false] at h
    obtain ⟨⟨extRecv, s₄⟩, hextReceive, h⟩ := bind_eq_ok.mp h
    obtain ⟨pdu, hpdu, hunwrap⟩ := unwrapTcp_discoverFrame unitId
    obtain ⟨answer', pushes', frames', hresponds', hwaits', hpushes', hplain', hlen', hrecv'⟩ :=
      ask_facing hW hpeer hwaits₂ hunwrap hextSend hextReceive
    have hunsupported : ¬server.Supports pdu := by
      simp [Server.Supports, hpdu, FunctionCode.extended,
      FunctionCode.readHoldingRegisters, FunctionCode.writeSingleRegister,
      FunctionCode.writeMultipleRegisters]
    obtain rfl : answer' = none := by
      rw [← Option.not_isSome_iff_eq_none, hresponds'.isSome_iff]
      exact fun hyes => hunsupported hyes.2
    obtain ⟨info, hinfo, hunit, hplainInfo⟩ :
      ∃ info, (Result.value info, s₄) = (result, s') ∧ info.unitId = unitId ∧
        info.supportsExtended = false := by
      obtain ⟨ec, rfl, rfl⟩ | ⟨bytes', rest', rfl, rfl⟩ := hrecv'
      · exact ⟨_, Except.ok.inj h, rfl, rfl⟩
      · obtain ⟨info, hdetect, h⟩ := bind_eq_ok.mp h
        obtain rfl := hplain' bytes' List.mem_cons_self _ _ hdetect
        exact ⟨_, Except.ok.inj h, rfl, rfl⟩
    cases hinfo
    refine ⟨pushes ++ pushes', _, hwaits', ?_, ?_, fun _ => rfl, ?_⟩
    · rw [hpushes', ← List.append_assoc, ← hpushes]
      rfl
    · rintro _ ⟨⟩
      exact ⟨hunit, hplainInfo⟩
    · have hone : (List.filter (fun _ => decide ¬Real server unitId)
        (found (.value info)).toList).length +
          answer.toList.length ≤ 1 := by
        cases answer with
        | none => exact List.length_filter_le _ _
        | some frame => simp [hreal.mp rfl]
      simp only [List.flatMap_append, List.length_append, List.length_tail,
        List.length_cons, Option.toList_none, List.length_nil] at hlen hlen' hone ⊢
      omega

/-- The units are probed one after the other: the frames that wait and the units that are
found but not real come out of what waited and what was told. -/
theorem probes_facing (hW : W.Linked arrive queues) (hpeer : peer.toTransport.Faces queues)
    (hnow : ∀ net, queues (peer.now net).2 = queues net) {units : List UInt8}
    {results : List (Result DeviceInfo)} (hwaits : Waits queues s backlog)
    (h : runAll (probe (server.facingWorld W peer extra) config) units s = .ok (results, s')) :
    ∃ pushes backlog', Waits queues s' backlog' ∧ s'.pushes = s.pushes ++ pushes ∧
      ((results.filterMap found).map (·.unitId)).Sublist units ∧
      (∀ info ∈ results.filterMap found, info.supportsExtended = false) ∧
      (∀ unitId ∈ units, Real server unitId → unitId ∈ (results.filterMap found).map (·.unitId)) ∧
      backlog'.length +
        ((results.filterMap found).filter fun info => ¬Real server info.unitId).length ≤
        backlog.length + (pushes.flatMap Issued.frames).length := by
  induction units generalizing s backlog results with
  | nil =>
    cases h
    exact ⟨[], backlog, hwaits, (List.append_nil _).symm, List.Sublist.slnil, nofun, nofun, le_rfl⟩
  | cons unitId units ih =>
    obtain ⟨result, s₁, results', hfirst, hothers, rfl⟩ := runAll_cons.mp h
    obtain ⟨pushes, backlog₁, hwaits₁, hpushes, hinfo, hfound, hcount⟩ :=
      probe_facing hW hpeer hnow hwaits hfirst
    obtain ⟨pushes', backlog', hwaits', hpushes', hsub, hplain, hall, hcount'⟩ := ih hwaits₁ hothers
    refine ⟨pushes ++ pushes', backlog', hwaits', ?_, ?_⟩
    · rw [hpushes', hpushes, List.append_assoc]
    cases result with
    | failure ec =>
      refine ⟨hsub.cons _, hplain, ?_, ?_⟩
      · refine List.forall_mem_cons.mpr ⟨fun hreal => ?_, hall⟩
        cases hfound hreal
      · simp only [List.flatMap_append, List.length_append, List.filterMap_cons, found]
          at hcount hcount' ⊢
        omega
    | value info =>
      obtain ⟨rfl, hext⟩ := hinfo info rfl
      refine ⟨hsub.cons_cons _, List.forall_mem_cons.mpr ⟨hext, hplain⟩, ?_, ?_⟩
      · exact List.forall_mem_cons.mpr
          ⟨fun _ => List.mem_cons_self, fun u hu hreal => List.mem_cons_of_mem _ (hall u hu hreal)⟩
      · simp only [List.flatMap_append, List.length_append, List.filterMap_cons, found,
          List.filter_cons, Option.toList_some, List.filter_nil] at hcount hcount' ⊢
        split_ifs at hcount ⊢ <;>
          simp only [List.length_cons, List.length_nil] at hcount ⊢ <;> omega

end scan

/-- Whatever the publisher tells meanwhile: a scan finds every unit of its range that the
server answers for, in order and none twice, and takes none for an extended device. The
units that it finds besides are no more than the notifications; without any it finds the
units of the server alone. -/
theorem scan_finds (server : Server σ) {W peer : World τ}
    {arrive : List UInt8 → τ → τ} {queues : τ → Option Queues}
    (hW : W.Linked arrive queues) (hpeer : peer.toTransport.Faces queues)
    (hnow : ∀ net, queues (peer.now net).2 = queues net) {extra : ℕ}
    {config : ScannerConfig} {devices : List DeviceInfo} {s s' : Facing σ τ}
    (hstart : queues s.serving.net.net = some ⟨[], []⟩)
    (hlooks : ∀ source ∈ s.serving.publisher.sources, source.LooksOn queues)
    (h : scanLoop (server.facingWorld W peer extra) config s = .ok (devices, s')) :
    ∃ pushes, s'.pushes = s.pushes ++ pushes ∧ (devices.map (·.unitId)).Sublist config.units ∧
      (∀ info ∈ devices, info.supportsExtended = false) ∧
      (∀ unitId, config.rangeStart ≤ unitId → unitId ≤ config.rangeEnd → Real server unitId →
        unitId ∈ devices.map (·.unitId)) ∧
      (devices.filter fun info => ¬Real server info.unitId).length ≤
        (pushes.flatMap Issued.frames).length ∧
      (pushes.flatMap Issued.frames = [] → devices.map (·.unitId) =
        config.units.filter (Real server)) := by
  rw [scanLoop_eq] at h
  obtain ⟨⟨results, s₁⟩, hprobes, h⟩ := bind_eq_ok.mp h
  cases h
  obtain ⟨pushes, backlog, -, hpushes, hsub, hplain, hall, hcount⟩ :=
    probes_facing hW hpeer hnow ⟨hlooks, hstart, nofun⟩ hprobes
  rw [List.length_nil, Nat.zero_add] at hcount
  refine ⟨pushes, hpushes, hsub, hplain,
    fun unitId hstart hend => hall unitId (ScannerConfig.mem_units.mpr ⟨hstart, hend⟩),
    by omega, ?_⟩
  intro hnone
  rw [hnone, List.length_nil] at hcount
  have hreal : ∀ info ∈ results.filterMap found, Real server info.unitId := by
    intro info hinfo
    by_contra hno
    have hmem : info ∈ (results.filterMap found).filter fun info => ¬Real server info.unitId :=
      List.mem_filter.mpr ⟨hinfo, decide_eq_true hno⟩
    have := List.length_pos_of_mem hmem
    omega
  have hkeep : ((results.filterMap found).map (·.unitId)).filter (Real server ·) =
      (results.filterMap found).map (·.unitId) :=
    List.filter_eq_self.mpr fun unitId hunit => by
      obtain ⟨info, hinfo, rfl⟩ := List.mem_map.mp hunit
      exact decide_eq_true (hreal info hinfo)
  have hfilter := hsub.filter (Real server ·)
  rw [hkeep] at hfilter
  refine hfilter.eq_of_length_le (List.Nodup.subperm ?_ ?_).length_le
  · exact ((bytesUpTo_increasing _ _).imp fun hlt => UInt8.ne_of_lt hlt).filter _
  · intro unitId hunit
    obtain ⟨hmem, hyes⟩ := List.mem_filter.mp hunit
    exact hall unitId hmem (of_decide_eq_true hyes)

/-- The client's end of the pair, with a clock that stands still. -/
def clientWorld : World Loopback where
  toTransport := Loopback.clientEnd
  isConnected l := l.client.connected
  now l := (⟨0⟩, l)

/-- Unit 1, whose register counts its reads. -/
def counter : Server UInt16 where
  readHandler := some fun _ _ value => (.value [value], value + 1)

/-- The counter with a publisher that tells every change to two subscriptions. -/
def counterStart : Publishing (Serving UInt16 Loopback) where
  publisher := {
    sources := [{
      start := 0, count := 1, reader := fun s => .ok ([s.device], s)
      lastValues := [0], hasBaseline := true }]
    subscriptions := [⟨1, {}, ⟨0⟩⟩, ⟨2, {}, ⟨0⟩⟩] }
  net := ⟨.connectedPair, 0, []⟩

/-- The read of unit 1 is told twice, and so unit 2 is found. -/
theorem scan_finds_counter : ∃ devices s' pushes,
    scanLoop (counter.facingWorld Loopback.serverWorld clientWorld 0)
      { rangeStart := 1, rangeEnd := 3 }
      ⟨counterStart, [], none⟩ = .ok (devices, s') ∧
    devices.map (·.unitId) = [1, 2] ∧ s'.pushes = pushes ∧
    (∀ info ∈ devices, info.supportsExtended = false) ∧
      (devices.filter fun info => ¬Real counter info.unitId).length ≤
        (pushes.flatMap Issued.frames).length := by
  obtain ⟨devices, s', h, hunits⟩ : ∃ devices s',
      scanLoop (counter.facingWorld Loopback.serverWorld clientWorld 0)
        { rangeStart := 1, rangeEnd := 3 }
        ⟨counterStart, [], none⟩ = .ok (devices, s') ∧ devices.map (·.unitId) = [1, 2] := by
    rw [scanLoop_eq]
    exact ⟨_, _, rfl, rfl⟩
  have hlooks : ∀ source ∈ counterStart.publisher.sources, source.LooksOn Loopback.queues := by
    rintro source hsource
    obtain rfl := List.mem_singleton.mp hsource
    rintro s values s' ⟨⟩
    exact ⟨rfl, rfl, rfl⟩
  obtain ⟨pushes, hpushes, -, hplain, -, hcount, -⟩ :=
    scan_finds counter Loopback.serverWorld_linked Loopback.clientEnd_faces
      (fun _ => rfl) rfl hlooks h
  exact ⟨devices, s', pushes, h, hunits, hpushes.trans (List.nil_append _), hplain, hcount⟩

end Scanner

end ModbusPp

import ModbusPp.Discovery.Scanner
import ModbusPp.Foundation.ByteLoop
import ModbusPp.Transport.Senders

/-! The loops of `scan` and `scan_async` as they are written, over an eight-bit unit id, and
what they put on the wire. -/

namespace ModbusPp

open Foundation TransportEvent

variable {τ : Type}

/-- The world beside something that it does not touch. -/
def World.beside (W : World τ) (α : Type) : World (α × τ) where
  send frame s := do
    let (r, net) ← W.send frame s.2
    return (r, s.1, net)
  receive timeout s := do
    let (r, net) ← W.receive timeout s.2
    return (r, s.1, net)
  isConnected s := W.isConnected s.2
  now s := ((W.now s.2).1, s.1, (W.now s.2).2)

/-- A call of one of the callbacks of `scan_async`. -/
inductive ScanReport
  | found (info : DeviceInfo)
  | complete
  deriving DecidableEq

namespace Scanner

variable (W : World τ) (config : ScannerConfig)

/-- The loop of `scan`. -/
def scanLoop (net : τ) : Checked (List DeviceInfo × τ) :=
  forBytes (fun unitId s => do
    let (result, net) ← probe W config unitId s.2
    return (s.1 ++ (found result).toList, net)) config.rangeEnd config.rangeStart ([], net)

/-- `scan_async`, with callbacks that work on the world. -/
def scanAsync (onFound : DeviceInfo → τ → Checked τ) (onComplete : Option (τ → Checked τ))
    (net : τ) : Checked τ := do
  let net ← forBytes (fun unitId net => do
    let (result, net) ← probe W config unitId net
    match result with
    | .value info => onFound info net
    | .failure _ => return net) config.rangeEnd config.rangeStart net
  match onComplete with
  | some callback => callback net
  | none => return net

variable {W config}

/-- The loop probes the units of the range. -/
theorem scanLoop_eq (net : τ) : scanLoop W config net = scan W config net := by
  rw [scanLoop, forBytes_eq, foldlM_collects (probe W config) (fun result => (found result).toList),
    scan, ScannerConfig.units]
  simp only [List.nil_append, List.filterMap_eq_flatMap_toList]

/-! ### On the wire -/

/-- What is sent to a unit: the request of the probe, and the second frame if the probe finds
a device. -/
def framesTo (unitId : UInt8) (result : Result DeviceInfo) : List (List UInt8) :=
  probeFrame unitId :: if (found result).isSome then [discoverFrame unitId] else []

theorem probe_frames {unitId : UInt8} {net net' : τ × List TransportEvent}
    {result : Result DeviceInfo} (h : probe W.traced config unitId net = .ok (result, net')) :
    sentFrames net'.2 = sentFrames net.2 ++ framesTo unitId result ∧
      ∀ info, result = .value info → info.unitId = unitId := by
  obtain ⟨⟨sendResult, net₁⟩, hsent, h⟩ := bind_eq_ok.mp h
  have htrace₁ := (Transport.traced_send hsent).2
  by_cases hvalue : sendResult.hasValue = true
  · simp only [hvalue, Bool.not_true, Bool.false_eq_true, if_false] at h
    obtain ⟨⟨recvResult, net₂⟩, hreceived, h⟩ := bind_eq_ok.mp h
    have htrace₂ := (Transport.traced_receive hreceived).2
    cases recvResult with
    | failure ec =>
      cases h
      exact ⟨by simp [htrace₂, htrace₁, framesTo, found], nofun⟩
    | value answer =>
      obtain ⟨⟨extSend, net₃⟩, hextSent, h⟩ := bind_eq_ok.mp h
      have htrace₃ : net₃.2 = net₂.2 ++ [.sent (discoverFrame unitId) extSend] :=
        (Transport.traced_send hextSent).2
      by_cases hextValue : extSend.hasValue = true
      · simp only [hextValue, Bool.not_true, Bool.false_eq_true, if_false] at h
        obtain ⟨⟨extRecv, net₄⟩, hextReceived, h⟩ := bind_eq_ok.mp h
        have htrace₄ := (Transport.traced_receive hextReceived).2
        cases extRecv with
        | failure ec =>
          cases h
          refine ⟨by simp [htrace₄, htrace₃, htrace₂, htrace₁, framesTo, found], ?_⟩
          rintro info ⟨⟩
          rfl
        | value answer' =>
          obtain ⟨info', hdetect, h⟩ := bind_eq_ok.mp h
          cases h
          refine ⟨by simp [htrace₄, htrace₃, htrace₂, htrace₁, framesTo, found], ?_⟩
          rintro info ⟨⟩
          exact detectExtended_unitId hdetect
      · rw [Bool.not_eq_true] at hextValue
        simp only [hextValue, Bool.not_false, if_true] at h
        cases h
        refine ⟨by simp [htrace₃, htrace₂, htrace₁, framesTo, found], ?_⟩
        rintro info ⟨⟩
        rfl
  · rw [Bool.not_eq_true] at hvalue
    simp only [hvalue, Bool.not_false, if_true] at h
    cases h
    exact ⟨by simp [htrace₁, framesTo, found], nofun⟩

theorem run_frames {units : List UInt8} {results : List (Result DeviceInfo)}
    {net net' : τ × List TransportEvent}
    (h : runAll (probe W.traced config) units net = .ok (results, net')) :
    results.length = units.length ∧
      sentFrames net'.2 = sentFrames net.2 ++ (units.zip results).flatMap
        (fun p => framesTo p.1 p.2) ∧
      (results.filterMap found).map (·.unitId) =
        ((units.zip results).filter fun p => (found p.2).isSome).map Prod.fst := by
  induction units generalizing net results with
  | nil =>
    cases h
    exact ⟨rfl, (List.append_nil _).symm, rfl⟩
  | cons unitId units ih =>
    obtain ⟨result, net₁, results', hfirst, hothers, rfl⟩ := runAll_cons.mp h
    obtain ⟨hframes, hunit⟩ := probe_frames hfirst
    obtain ⟨hlength, hrest, hunits⟩ := ih hothers
    refine ⟨congrArg (· + 1) hlength, ?_, ?_⟩
    · rw [hrest, hframes, List.zip_cons_cons, List.flatMap_cons, List.append_assoc]
    · cases result with
      | failure ec => exact hunits
      | value info =>
        obtain rfl := hunit info rfl
        exact congrArg (info.unitId :: ·) hunits

/-- A scan probes the units of the range alone, each of them once and in rising order. It
sends a second frame exactly to those whose probe finds a device; and the devices it returns
are the units whose probe found one, in that order. -/
theorem scan_frames {net net' : τ × List TransportEvent} {devices : List DeviceInfo}
    (h : scanLoop W.traced config net = .ok (devices, net')) :
    ∃ (units : List UInt8) (results : List (Result DeviceInfo)), units.Pairwise (· < ·) ∧
      (∀ unitId, unitId ∈ units ↔ config.rangeStart ≤ unitId ∧ unitId ≤ config.rangeEnd) ∧
      runAll (probe W.traced config) units net = .ok (results, net') ∧
      results.length = units.length ∧
      sentFrames net'.2 = sentFrames net.2 ++ (units.zip results).flatMap
        (fun p => framesTo p.1 p.2) ∧
      devices.map (·.unitId) = ((units.zip results).filter fun p => (found p.2).isSome).map
        Prod.fst := by
  rw [scanLoop_eq, scan] at h
  obtain ⟨⟨results, net₁⟩, hrun, h⟩ := bind_eq_ok.mp h
  cases h
  exact ⟨config.units, results, bytesUpTo_increasing _ _, fun _ => mem_bytesUpTo, hrun,
    run_frames hrun⟩

/-! ### The callbacks -/

theorem probe_beside {α : Type} (unitId : UInt8) (s : α × τ) :
    probe (W.beside α) config unitId s = (do
      let (result, net) ← probe W config unitId s.2
      return (result, s.1, net)) := by
  unfold probe
  simp only [World.beside, bind_assoc, pure_bind]
  refine bind_congr fun sent => ?_
  split_ifs
  · rfl
  simp only [bind_assoc]
  refine bind_congr fun received => ?_
  cases received.1 with
  | failure ec => rfl
  | value answer =>
    simp only [bind_assoc]
    refine bind_congr fun extSent => ?_
    split_ifs
    · rfl
    simp only [bind_assoc]
    refine bind_congr fun extReceived => ?_
    cases extReceived.1 with
    | failure ec => rfl
    | value bytes => simp only [bind_assoc, pure_bind]

/-- Whatever was reported before: `scan_async` reports the devices that `scan` returns, in
its order, and then that it is complete, if it has somebody to tell; it returns when `scan`
does, and leaves the transport as `scan` does. -/
theorem scanAsync_reports (listens : Bool) (reports : List ScanReport) (net : τ) :
    scanAsync (W.beside (List ScanReport)) config (fun info s => .ok (s.1 ++ [.found info], s.2))
        (if listens then some fun s => .ok (s.1 ++ [.complete], s.2) else none) (reports, net) = (do
      let (devices, net) ← scanLoop W config net
      return (reports ++ devices.map ScanReport.found ++ if listens then [.complete] else [],
        net)) := by
  have hbody : (fun (s : List ScanReport × τ) unitId => do
        let (result, s) ← probe (W.beside (List ScanReport)) config unitId s
        match result with
        | .value info => Except.ok (s.1 ++ [.found info], s.2)
        | .failure _ => return s) =
      fun s unitId => do
        let (result, net) ← probe W config unitId s.2
        return (s.1 ++ (found result).toList.map ScanReport.found, net) := by
    funext s unitId
    rw [probe_beside]
    cases probe W config unitId s.2 with
    | error fault => rfl
    | ok probed =>
      obtain ⟨result, net⟩ := probed
      cases result with
      | value info => rfl
      | failure ec => exact congrArg (fun log => Except.ok (log, net)) (List.append_nil s.1).symm
  rw [scanAsync, forBytes_eq, hbody, foldlM_collects (probe W config)
    (fun result => (found result).toList.map ScanReport.found),
    scanLoop_eq, scan, ScannerConfig.units]
  cases runAll (probe W config) (bytesUpTo config.rangeStart config.rangeEnd) net with
  | error fault => rfl
  | ok ran =>
    obtain ⟨results, net'⟩ := ran
    cases listens with
    | false =>
      simp only [ok_bind, pure_eq_ok, List.filterMap_eq_flatMap_toList, List.map_flatMap,
        Bool.false_eq_true, if_false, List.append_nil]
    | true =>
      simp only [ok_bind, pure_eq_ok, List.filterMap_eq_flatMap_toList, List.map_flatMap, if_true]

/-- Units that answer from a list. -/
def answering : World (List (List UInt8)) where
  toTransport := Transport.replies
  isConnected _ := true
  now answers := (⟨0⟩, answers)

/-- The last two units that there are, the first of which answers once. -/
theorem scan_frames_last : ∃ devices net',
    scanLoop answering.traced { rangeStart := 254, rangeEnd := 255 } ([[1]], []) =
      .ok (devices, net') ∧
    devices.map (·.unitId) = [254] ∧
    ∃ (units : List UInt8) (results : List (Result DeviceInfo)), units.Pairwise (· < ·) ∧
      (∀ unitId, unitId ∈ units ↔ 254 ≤ unitId ∧ unitId ≤ 255) ∧ results.length = units.length ∧
      sentFrames net'.2 = (units.zip results).flatMap fun p => framesTo p.1 p.2 := by
  obtain ⟨devices, net', h, hdevices⟩ : ∃ devices net',
      scanLoop answering.traced { rangeStart := 254, rangeEnd := 255 } ([[1]], []) =
        .ok (devices, net') ∧
      devices.map (·.unitId) = [254] := by
    rw [scanLoop_eq]
    exact ⟨_, _, rfl, rfl⟩
  obtain ⟨units, results, hincreasing, hunits, -, hlength, hframes, -⟩ := scan_frames h
  exact ⟨devices, net', h, hdevices, units, results, hincreasing, hunits, hlength, hframes⟩

end Scanner

end ModbusPp

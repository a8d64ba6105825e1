import ModbusPp.PubSub.Coverage
import ModbusPp.PubSub.TypedTriggers

/-! Scans that read what the scan before them has read. They tell an OnChange subscription
nothing, unless there is nothing to compare: `should_notify` takes an empty slice for a
first reading, whether or not the source has a baseline. -/

namespace ModbusPp

open Foundation

variable {τ : Type}

/-- The last values have a register of the subscription. -/
def DataSource.Shows (source : DataSource τ) (request : SubscriptionRequest) : Prop :=
  request.count ≠ 0 ∧ source.sliceStart request < source.lastValues.length

/-- What the sources have last been read as. -/
def Publishing.readings (s : Publishing τ) : List (List UInt16) :=
  s.publisher.sources.map DataSource.lastValues

theorem ScanEvent.issued_eq_nil_iff {e : ScanEvent τ} {j : ℕ} :
    e.issued j = [] ↔ ∀ k, e.issuedFrom k j = none := by
  rw [ScanEvent.issued, List.filterMap_eq_nil_iff]
  constructor
  · intro hall k
    cases hrow : e.log[k]? with
    | none => rw [ScanEvent.issuedFrom, hrow]; rfl
    | some row =>
      rw [ScanEvent.issuedFrom, hrow]
      exact hall row (List.mem_of_getElem? hrow)
  · intro hall row hmem
    obtain ⟨k, hk⟩ := List.mem_iff_getElem?.mp hmem
    have hnone := hall k
    rw [ScanEvent.issuedFrom, hk] at hnone
    exact hnone

theorem DataSource.registers_eq_nil_iff {source : DataSource τ} {request : SubscriptionRequest} :
    source.registers request source.lastValues = [] ↔ ¬source.Shows request := by
  have hcount : request.count ≠ 0 ↔ request.count.toNat ≠ 0 := by
    rw [ne_eq, ← UInt16.toNat_inj]; rfl
  rw [registers, ← List.length_eq_zero_iff, List.length_take, List.length_drop, Shows,
    hcount, sliceStart]
  omega

namespace Publisher

variable {W : World τ} {s s' : Publishing τ} {j k : ℕ} {request : SubscriptionRequest}
  {source : DataSource τ}
  {sub : ActiveSubscription}

theorem scan_uncovered {e : ScanEvent τ} (h : scan W () s = .ok (e, s'))
    (hsource : s.publisher.sources[k]? = some source)
    (hsub : (s.publisher.subscriptions[j]?).map ActiveSubscription.request = some request)
    (huncovered : ¬source.Covers request) : e.issuedFrom k j = none := by
  obtain ⟨-, -, outs, hlog, -, hall⟩ := scan_rows h
  obtain ⟨⟨row, source'⟩, hout, subs, net, subs', net', hsubs, hone⟩ := forall₂_at hall hsource
  rw [ScanEvent.issuedFrom, hlog, List.getElem?_map, hout]
  refine row_uncovered hone ?_ huncovered
  rw [hsubs, List.getElem?_map, hsub]

theorem scan_beyond {e : ScanEvent τ} (h : scan W () s = .ok (e, s'))
    (hsource : s.publisher.sources[k]? = none) :
    e.issuedFrom k j = none := by
  obtain ⟨-, -, outs, hlog, -, hall⟩ := scan_rows h
  rw [List.getElem?_eq_none_iff, hall.length_eq] at hsource
  rw [ScanEvent.issuedFrom, hlog, List.getElem?_map, List.getElem?_eq_none hsource]
  rfl

/-- A scan tells a subscription nothing exactly if every source that covers it finds
nothing to tell. -/
theorem scan_silent_iff {e : ScanEvent τ} (h : scan W () s = .ok (e, s'))
    (hsub : (s.publisher.subscriptions[j]?).map ActiveSubscription.request = some request)
    (htrigger : request.trigger ≠ .periodic) :
    e.issued j = [] ↔ ∀ k source, s.publisher.sources[k]? = some source → source.Covers request →
      request.registersTrigger (e.reading k request) (source.baseline request) = false := by
  rw [ScanEvent.issued_eq_nil_iff]
  constructor
  · intro hnone k source hsource hcovers
    rw [← scan_issuedFrom h hsource hsub hcovers htrigger, hnone k]
    rfl
  · intro hquiet k
    cases hsource : s.publisher.sources[k]? with
    | none => exact scan_beyond h hsource
    | some source =>
      by_cases hcovers : source.Covers request
      · rw [← Option.isSome_eq_false_iff.trans Option.isNone_iff_eq_none,
          scan_issuedFrom h hsource hsub hcovers htrigger]
        exact hquiet k source hsource hcovers
      · exact scan_uncovered h hsource hsub hcovers

/-- A scan tells an OnChange subscription nothing exactly if no source that covers it finds
its registers changed. -/
theorem silent_iff {e : PublisherEvent τ} (h : perform W .scan e.before = .ok (e.outcome, e.after))
    (hsub : e.before.publisher.subscriptions[j]? = some sub)
    (htrigger : sub.request.trigger = .onChange) :
    e.issuedFor j = [] ↔ ∀ (k : ℕ) (source : DataSource τ) (current : List UInt16),
      e.before.publisher.sources[k]? = some source →
      e.after.publisher.sources[k]? =
        some { source with lastValues := current, hasBaseline := true } →
      source.Covers sub.request →
      changed sub.request.deadBand (source.registers sub.request current)
        (source.baseline sub.request) = false := by
  obtain ⟨log, houtcome, hscan⟩ := perform_scan h
  have hrequest :
      (e.before.publisher.subscriptions[j]?).map ActiveSubscription.request = some sub.request := by
    rw [hsub, Option.map_some]
  have hreading : ∀ (k : ℕ) (source : DataSource τ) (current : List UInt16),
      e.after.publisher.sources[k]? =
        some { source with lastValues := current, hasBaseline := true } →
      ScanEvent.reading k sub.request ⟨log, e.before, e.after⟩ =
        source.registers sub.request current := by
    intro k source current hafter
    rw [ScanEvent.reading, hafter]
    rfl
  rw [PublisherEvent.issuedFor_scanned houtcome,
    scan_silent_iff hscan hrequest (by rw [htrigger]; decide)]
  simp only [SubscriptionRequest.registersTrigger, htrigger]
  constructor
  · intro hall k source current hk hafter hcovers
    rw [← hreading k source current hafter]
    exact hall k source hk hcovers
  · intro hall k source hk hcovers
    obtain ⟨current, hafter⟩ := scan_reads hscan hk
    rw [hreading k source current hafter]
    exact hall k source current hk hafter hcovers

theorem run_inARow {calls : List (PublisherCall τ)}
    {earlier between later : List (PublisherEvent τ)} {first second : PublisherEvent τ}
    {last : Publishing τ}
    (hrun : runAll (step W) calls s = .ok (earlier ++ first :: (between ++ second :: later), last))
    (hfirst : first.call = .scan) (hbetween : ∀ e ∈ between, e.call.isScan = false)
    (hsecond : second.call = .scan) :
    InARow W first second := by
  obtain ⟨-, after, -, -, hfirst_scan, hafter⟩ := run_at hrun
  obtain ⟨others, -, -, hothers, hsecond_scan, -⟩ := run_at hafter
  refine ⟨hfirst ▸ hfirst_scan, ⟨others, between, ?_, hothers⟩, hsecond ▸ hsecond_scan⟩
  rw [← run_calls hothers]
  exact List.forall_mem_map.mpr hbetween

/-- If the second of two scans in a row reads what the first has read, it finds every source
with a baseline and reads it again. -/
theorem InARow.sources_same {first second : PublisherEvent τ} (h : InARow W first second)
    (hsame : first.after.readings = second.after.readings)
    (hsource : second.before.publisher.sources[k]? = some source) :
    source.hasBaseline = true ∧ second.after.publisher.sources[k]? = some source := by
  obtain ⟨calls, events, hother, hcalls⟩ := h.between
  obtain ⟨fresh, hsources, -⟩ := run_sources hother hcalls
  obtain ⟨log₁, -, hscan₁⟩ := perform_scan h.first_scan
  obtain ⟨log₂, -, hscan₂⟩ := perform_scan h.second_scan
  have hlength :
      second.before.publisher.sources.length = second.after.publisher.sources.length := by
    obtain ⟨-, -, outs, -, hafter, hall⟩ := scan_rows hscan₂
    rw [hafter, List.length_map, hall.length_eq]
  -- the second scan has read as many sources as the first
  have hnone : fresh = [] := by
    have hread := congrArg List.length hsame
    rw [Publishing.readings, Publishing.readings, List.length_map,
      List.length_map, ← hlength, hsources, List.length_append] at hread
    exact List.length_eq_zero_iff.mp (by omega)
  rw [hnone, List.append_nil] at hsources
  have hfirst := hsources ▸ hsource
  obtain ⟨hbaseline, -⟩ := scan_baselines hscan₁ hfirst
  obtain ⟨current, hafter⟩ := scan_reads hscan₂ hsource
  have hvalues : some source.lastValues = some current := by
    have hread := congrArg (·[k]?) hsame
    simp only [Publishing.readings, List.getElem?_map, hfirst, hafter, Option.map_some] at hread
    exact hread
  refine ⟨hbaseline, ?_⟩
  rw [hafter, ← Option.some.inj hvalues, ← hbaseline]

theorem changed_same {deadBand : Double} (hband : deadBand.atLeast 0 = true)
    (values : List UInt16) :
    changed deadBand values values = values.isEmpty := by
  have hquiet : ∀ x : UInt16, deadBand.below (registerDistance x x) = false := by
    intro x
    rw [registerDistance, sub_self]
    cases deadBand with
    | finite q => simpa [Double.below, Double.atLeast] using hband
    | infinity negative => simpa [Double.below, Double.atLeast] using hband
    | nan => rfl
  rw [changed]
  refine (congrArg (values.isEmpty || ·) (List.any_eq_false.mpr ?_)).trans (Bool.or_false _)
  rintro ⟨c, p⟩ hmem
  obtain ⟨i, hi⟩ := List.mem_iff_getElem?.mp hmem
  obtain ⟨hc, hp⟩ := List.getElem?_zip_eq_some.mp hi
  have hsame : c = p := Option.some.inj (hc.symm.trans hp)
  rw [hsame, Bool.not_eq_true]
  exact hquiet p

/-- Of two scans in a row that read the same, the second tells an OnChange subscription
nothing exactly if every source that covers it shows it. -/
theorem InARow.unchanged_iff {first second : PublisherEvent τ} (h : InARow W first second)
    (hsame : first.after.readings = second.after.readings)
    (hsub : second.before.publisher.subscriptions[j]? = some sub)
    (htrigger : sub.request.trigger = .onChange) (hband : sub.request.deadBand.atLeast 0 = true) :
    second.issuedFor j = [] ↔
      ∀ source ∈ second.before.publisher.sources, source.Covers sub.request →
        source.Shows sub.request := by
  have hquiet : ∀ source : DataSource τ, source.hasBaseline = true →
      (changed sub.request.deadBand (source.registers sub.request source.lastValues)
        (source.baseline sub.request) = false ↔
        source.Shows sub.request) := by
    intro source hbaseline
    rw [DataSource.baseline, if_pos hbaseline, changed_same hband, List.isEmpty_eq_false_iff, ne_eq,
      DataSource.registers_eq_nil_iff, not_not]
  rw [silent_iff h.second_scan hsub htrigger]
  constructor
  · intro hall source hmem hcovers
    obtain ⟨k, hk⟩ := List.mem_iff_getElem?.mp hmem
    obtain ⟨hbaseline, hagain⟩ := h.sources_same hsame hk
    refine (hquiet source hbaseline).mp (hall k source source.lastValues hk ?_ hcovers)
    rw [hagain, ← hbaseline]
  · intro hall k source current hk hafter hcovers
    obtain ⟨hbaseline, hagain⟩ := h.sources_same hsame hk
    have hcurrent : current = source.lastValues :=
      congrArg DataSource.lastValues (Option.some.inj (hafter.symm.trans hagain))
    rw [hcurrent]
    exact (hquiet source hbaseline).mpr (hall source (List.mem_of_getElem? hk) hcovers)

/-- In every run, a scan that reads from every source what the scan before it has read tells
an active OnChange subscription nothing if and only if every source that contains its first
register has been read with a register of it. -/
theorem quiet_iff {calls : List (PublisherCall τ)} {earlier between later : List (PublisherEvent τ)}
    {first second : PublisherEvent τ} {net : τ} {last : Publishing τ}
    (hrun : runAll (step W) calls ⟨{}, net⟩ =
      .ok (earlier ++ first :: (between ++ second :: later), last))
    (hfirst : first.call = .scan) (hbetween : ∀ e ∈ between, e.call.isScan = false)
    (hsecond : second.call = .scan) (hsub : second.before.publisher.subscriptions[j]? = some sub)
    (htrigger : sub.request.trigger = .onChange) (hband : sub.request.deadBand.atLeast 0 = true)
    (hsame : first.after.readings = second.after.readings) :
    second.issuedFor j = [] ↔
      ∀ source ∈ second.before.publisher.sources, source.Covers sub.request →
        source.Shows sub.request :=
  (run_inARow hrun hfirst hbetween hsecond).unchanged_iff hsame hsub htrigger hband

theorem quiet_one_register : ∃ earlier first second last,
    runAll (step scripted) [.register 0 1 readOne, .accept {}, .scan, .scan] ⟨{}, [5, 5]⟩ =
      .ok (earlier ++ [first, second], last) ∧
    first.after.readings = second.after.readings ∧ second.issuedFor 0 = [] := by
  obtain ⟨earlier, first, second, last, hrun, hfirst, hsecond, hsub, hsame, hshows⟩ :
    ∃ earlier first second last,
      runAll (step scripted) [.register 0 1 readOne, .accept {}, .scan, .scan] ⟨{}, [5, 5]⟩ =
        .ok (earlier ++ [first, second], last) ∧ first.call = .scan ∧ second.call = .scan ∧
      second.before.publisher.subscriptions[0]? = some ⟨1, {}, ⟨0⟩⟩ ∧
      first.after.readings = second.after.readings ∧
      ∀ source ∈ second.before.publisher.sources, source.Shows {} :=
    ⟨[_, _], _, _, _, rfl, rfl, rfl, rfl, rfl, List.forall_mem_singleton.mpr ⟨by decide, by decide⟩⟩
  exact ⟨earlier, first, second, last, hrun, hsame,
    (quiet_iff (W := scripted) hrun hfirst (List.forall_mem_nil _) hsecond
    hsub rfl (by decide) hsame).mpr fun source hmem _ => hshows source hmem⟩

/-- A subscription to no registers is told the same nothing in every scan. -/
theorem no_registers_told : ∃ earlier first second last,
    runAll (step scripted) [.register 0 1 readOne, .accept { count := 0 }, .scan, .scan]
      ⟨{}, [5, 5]⟩ = .ok (earlier ++ [first, second], last) ∧
    first.call.isScan = true ∧ second.call.isScan = true ∧
    first.after.readings = second.after.readings ∧
    first.before.publisher.subscriptions.map ActiveSubscription.id = [1] ∧
    (second.before.publisher.subscriptions[0]?).map ActiveSubscription.request =
      some { count := 0 } ∧
    second.issuedFor 0 ≠ [] :=
  ⟨[_, _], _, _, _, rfl, rfl, rfl, rfl, rfl, rfl, nofun⟩

end Publisher

end ModbusPp

import ModbusPp.PubSub.Coverage

/-! The slices that `scan_and_notify` takes of the values just read and of the last ones.
It cuts the end of a slice to the values there are, and not the beginning. The declared
range of a source places the beginning inside the source, and nothing makes its reader
return that many values. -/

namespace ModbusPp

open Foundation

variable {τ : Type}

namespace DataSource

variable {source : DataSource τ} {request : SubscriptionRequest} {values : List UInt16}

def sliceStart (source : DataSource τ) (request : SubscriptionRequest) : ℕ :=
  request.startAddress.toNat - source.start.toNat

def sliceEnd (source : DataSource τ) (request : SubscriptionRequest) (values : List UInt16) : ℕ :=
  min (source.sliceStart request + request.count.toNat) values.length

/-- The slice of the values is a range of them. -/
def SliceInside (source : DataSource τ) (request : SubscriptionRequest)
    (values : List UInt16) : Prop :=
  source.sliceStart request ≤ source.sliceEnd request values ∧
  source.sliceEnd request values ≤ values.length

/-- Taking the slice stays inside the vector exactly if its bounds do. -/
theorem slice_returns_iff : (∃ slice, source.slice request values = .ok slice) ↔
    source.SliceInside request values := by
  have hbounds : source.sliceStart request ≤ source.sliceEnd request values ∧
      0 + source.sliceEnd request values ≤ values.length ↔ source.SliceInside request values := by
    rw [Nat.zero_add, SliceInside]
  rw [slice, Span.copy, ← hbounds]
  by_cases hinside : source.sliceStart request ≤ source.sliceEnd request values ∧
      0 + source.sliceEnd request values ≤ values.length
  · exact iff_of_true ⟨_, if_pos hinside⟩ hinside
  · refine iff_of_false ?_ hinside
    rintro ⟨slice, h⟩
    have hfault := h.symm.trans (if_neg hinside)
    cases hfault

/-- The end takes care of itself. -/
theorem sliceInside_iff : source.SliceInside request values ↔
    source.sliceStart request ≤ values.length := by
  rw [SliceInside, sliceEnd]
  omega

end DataSource

namespace Publisher

/-- A scan from `s` reads `current` from the source, with these subscriptions. -/
def Reads (W : World τ) (s : Publishing τ) (source : DataSource τ) (current : List UInt16)
    (subs : List ActiveSubscription) (net : τ) : Prop :=
  ∃ before after outs net₀, s.publisher.sources = before ++ source :: after ∧
    runAll (scanSource W) before (s.publisher.subscriptions, s.net) = .ok (outs, subs, net₀) ∧
    source.reader net₀ = .ok (current, net)

/-- Having read the source the scan comes to a subscription that the source covers. -/
def Looks (W : World τ) (s : Publishing τ) (source : DataSource τ)
    (current : List UInt16) (sub : ActiveSubscription) :
    Prop :=
  ∃ earlier later net done net', Reads W s source current (earlier ++ sub :: later) net ∧
    runAll (notifyOne W source current) earlier net = .ok (done, net') ∧ source.Covers sub.request

/-- The slices that a scan takes, each of a vector for a subscription: of the values just
read, and then of the last ones if there is a baseline. -/
inductive Takes (W : World τ) (s : Publishing τ) :
    DataSource τ → SubscriptionRequest → List UInt16 → Prop
  | current {source : DataSource τ} {current : List UInt16} {sub : ActiveSubscription}
    (hlooks : Looks W s source current sub) : Takes W s source sub.request current
  | previous {source : DataSource τ} {current : List UInt16} {sub : ActiveSubscription}
    (hlooks : Looks W s source current sub) (hcurrent : source.SliceInside sub.request current)
    (hbaseline : source.hasBaseline = true) : Takes W s source sub.request source.lastValues

def SlicesInside (W : World τ) (s : Publishing τ) : Prop :=
  ∀ source request values, Takes W s source request values → source.SliceInside request values

/-- The vectors that a call reads, or has read before, are long enough: in a scan for the
active subscriptions of the source, at an acceptance for the new one. -/
def Sufficient (W : World τ) : PublisherCall τ → Publishing τ → Prop
  | .scan, s => ∀ source current subs net, Reads W s source current subs net →
      ∀ sub ∈ s.publisher.subscriptions, source.Covers sub.request →
        source.sliceStart sub.request ≤ current.length
  | .accept request, s => ∀ source ∈ s.publisher.sources,
      source.hasBaseline = true → source.Covers request →
      source.sliceStart request ≤ source.lastValues.length
  | .register _ _ _, _ => True
  | .remove _, _ => True

/-- The last values are long enough for every subscription. -/
def Baselined (s : Publishing τ) : Prop :=
  ∀ source ∈ s.publisher.sources, source.hasBaseline = true → ∀ sub ∈ s.publisher.subscriptions,
    source.Covers sub.request → source.sliceStart sub.request ≤ source.lastValues.length

variable {W : World τ} {s s' : Publishing τ} {source : DataSource τ}
  {current : List UInt16} {sub : ActiveSubscription}

/-! ### One scan -/

theorem runAll_requests {sources : List (DataSource τ)}
    {subs subs' : List ActiveSubscription} {net net' : τ}
    {outs : List (List (Option Issued) × DataSource τ)}
    (h : runAll (scanSource W) sources (subs, net) = .ok (outs, subs', net')) :
    subs'.map ActiveSubscription.request = subs.map ActiveSubscription.request :=
  (runAll_forall₂ (fun p : List ActiveSubscription × τ => p.1.map ActiveSubscription.request =
      subs.map ActiveSubscription.request)
    (fun _ _ _ _ hp hone => (scanSource_facts hone).1.trans hp) sources rfl h).1

theorem Looks.request_mem (h : Looks W s source current sub) :
    (∃ subs net, Reads W s source current subs net) ∧ source ∈ s.publisher.sources ∧
      ∃ sub' ∈ s.publisher.subscriptions, sub'.request = sub.request := by
  obtain ⟨earlier, later, net, done, net', hreads, -, -⟩ := h
  refine ⟨⟨_, _, hreads⟩, ?_⟩
  obtain ⟨before, after, outs, net₀, hsources, hscanned, -⟩ := hreads
  refine ⟨by rw [hsources]; simp, ?_⟩
  have hrequests := runAll_requests hscanned
  have hmem : sub.request ∈ s.publisher.subscriptions.map ActiveSubscription.request := by
    rw [← hrequests]
    simp
  exact List.mem_map.mp hmem

theorem slicesInside_of_sufficient (hbaselined : Baselined s)
    (h : Sufficient W .scan s) : SlicesInside W s := by
  intro source request values htakes
  cases htakes with
  | current hlooks =>
    obtain ⟨⟨subs, net, hreads⟩, -, sub', hsub', hrequest⟩ := hlooks.request_mem
    obtain ⟨-, -, -, -, -, -, -, hcovers⟩ := hlooks
    rw [← hrequest] at hcovers ⊢
    exact DataSource.sliceInside_iff.mpr (h source values subs net hreads sub' hsub' hcovers)
  | previous hlooks hcurrent hbaseline =>
    obtain ⟨-, hmem, sub', hsub', hrequest⟩ := hlooks.request_mem
    obtain ⟨-, -, -, -, -, -, -, hcovers⟩ := hlooks
    rw [← hrequest] at hcovers ⊢
    exact DataSource.sliceInside_iff.mpr (hbaselined source hmem hbaseline sub' hsub' hcovers)

theorem scan_reads_kept {e : ScanEvent τ} (h : scan W () s = .ok (e, s')) {source' : DataSource τ}
    (hmem : source' ∈ s'.publisher.sources) :
    ∃ source current subs net, Reads W s source current subs net ∧
      source' = { source with lastValues := current, hasBaseline := true } := by
  obtain ⟨⟨log, t⟩, hscan, h⟩ := bind_eq_ok.mp h
  cases h
  obtain ⟨⟨outs, subs, net⟩, hsources, hscan⟩ := bind_eq_ok.mp hscan
  cases hscan
  obtain ⟨out, hout, rfl⟩ := List.mem_map.mp hmem
  obtain ⟨outs₁, outs₂, rfl⟩ := List.append_of_mem hout
  obtain ⟨before, others, ⟨subs₁, net₁⟩, hsplit, hbefore, hothers⟩ := runAll_split hsources
  cases others with
  | nil => cases hothers
  | cons source after =>
    obtain ⟨out', ⟨subs₂, net₂⟩, outs', hone, -, heq⟩ := runAll_cons.mp hothers
    obtain ⟨rfl, -⟩ := List.cons.inj heq
    obtain ⟨-, current, net₃, hread, hsource, -⟩ := scanSource_facts hone
    exact ⟨source, current, subs₁, net₃, ⟨before, after, outs₁, net₁, hsplit, hbefore, hread⟩,
      hsource⟩

/-! ### Runs -/

theorem perform_baselined {call : PublisherCall τ} {outcome : PublisherOutcome} (hs : Baselined s)
    (hsufficient : Sufficient W call s) (h : perform W call s = .ok (outcome, s')) :
    Baselined s' := by
  cases call with
  | register start count reader =>
    cases h
    intro source hmem hbaseline
    rcases List.mem_append.mp hmem with hmem | hmem
    · exact hs source hmem hbaseline
    · rw [List.mem_singleton.mp hmem] at hbaseline
      contradiction
  | accept request =>
    obtain ⟨-, hsubs, -, hsources, -⟩ := perform_accept h
    intro source hmem hbaseline sub hsub hcovers
    rw [hsources] at hmem
    rw [hsubs, List.mem_append, List.mem_singleton] at hsub
    rcases hsub with hsub | rfl
    · exact hs source hmem hbaseline sub hsub hcovers
    · exact hsufficient source hmem hbaseline hcovers
  | remove id =>
    obtain ⟨result, -, -, hsubs, -, hsources, -⟩ := perform_remove h
    intro source hmem hbaseline sub hsub
    rw [hsources] at hmem
    rw [hsubs] at hsub
    exact hs source hmem hbaseline sub (List.mem_of_mem_filter hsub)
  | scan =>
    -- the vectors just read are the new last values
    obtain ⟨log, -, hscan⟩ := perform_scan h
    obtain ⟨-, hrequests, -⟩ := scan_rows hscan
    intro source' hmem _ sub hsub hcovers
    obtain ⟨source, current, subs, net, hreads, rfl⟩ := scan_reads_kept hscan hmem
    have hrequest : sub.request ∈ s.publisher.subscriptions.map ActiveSubscription.request := by
      rw [← hrequests]
      exact List.mem_map_of_mem hsub
    obtain ⟨sub', hsub', hsame⟩ := List.mem_map.mp hrequest
    change source.Covers sub.request at hcovers
    change source.sliceStart sub.request ≤ current.length
    rw [← hsame] at hcovers ⊢
    exact hsufficient source current subs net hreads sub' hsub' hcovers

theorem baselined_start (net : τ) : Baselined (⟨{}, net⟩ : Publishing τ) :=
  fun _ hmem => absurd hmem List.not_mem_nil

/-- In every run of a publisher in which the vectors read are long enough, every scan takes
its slices inside them. -/
theorem scan_slices_inside (W : World τ) (net : τ) {calls : List (PublisherCall τ)}
    {events : List (PublisherEvent τ)} {s : Publishing τ}
    (hrun : runAll (step W) calls ⟨{}, net⟩ = .ok (events, s))
    (hsufficient : Guarded (step W) (Sufficient W) (calls ++ [.scan]) ⟨{}, net⟩) :
    SlicesInside W s := by
  obtain ⟨hcalls, hscan, -⟩ := hsufficient.split hrun
  have hbaselined : Baselined s := (runAll_keeps_guarded Baselined (fun _ => True)
    (fun _ _ _ _ hs hguard h => ⟨perform_baselined hs hguard (step_event h).2.2.2, trivial⟩) calls
    (baselined_start net) hcalls hrun).1
  exact slicesInside_of_sufficient hbaselined hscan

/-- A source of ten registers, whose reader returns `values`, and a subscription to the sixth. -/
def sixth (values : List UInt16) : List (PublisherCall (List UInt16)) :=
  [.register 0 10 fun net => .ok (values, net), .accept { startAddress := 5 }]

/-- The state after these calls. -/
def sixthWatched (values : List UInt16) : Publishing (List UInt16) where
  publisher := {
    sources := [{ start := 0, count := 10, reader := fun net => .ok (values, net) }]
    subscriptions := [⟨1, { startAddress := 5 }, ⟨0⟩⟩]
    nextSubId := 2 }
  net := []

theorem sixth_runs (values : List UInt16) :
    ∃ events, runAll (step scripted) (sixth values) ⟨{}, []⟩ = .ok (events, sixthWatched values) :=
  ⟨_, rfl⟩

theorem sixth_sufficient : Sufficient scripted .scan (sixthWatched (List.replicate 10 0)) := by
  rintro source current subs net ⟨before, after, outs, net₀, hsources, -, hread⟩ sub hsub -
  have hsource : source ∈ (sixthWatched (List.replicate 10 0)).publisher.sources := by
    rw [hsources]; simp
  rw [List.mem_singleton.mp hsource] at hread ⊢
  rw [List.mem_singleton.mp hsub]
  cases hread
  decide

/-- The reader returns its ten registers. -/
theorem scan_slices_inside_full : SlicesInside scripted (sixthWatched (List.replicate 10 0)) := by
  obtain ⟨events, hrun⟩ := sixth_runs (List.replicate 10 0)
  refine scan_slices_inside scripted [] hrun
    (.cons trivial rfl (.cons ?_ rfl ⟨sixth_sufficient, fun _ _ _ => trivial⟩))
  intro source hmem hbaseline
  rw [List.mem_singleton.mp hmem] at hbaseline
  contradiction

/-- The reader returns nothing: the scan takes a slice that begins at index 5 and ends at 0. -/
theorem short_reading_sliced :
    ¬∀ (W : World (List UInt16)) (net : List UInt16) (calls : List (PublisherCall (List UInt16)))
      (events : List (PublisherEvent (List UInt16))) (s : Publishing (List UInt16)),
      runAll (step W) calls ⟨{}, net⟩ = .ok (events, s) → SlicesInside W s := by
  intro hall
  obtain ⟨events, hrun⟩ := sixth_runs []
  have hreads : Reads scripted (sixthWatched [])
    { start := 0, count := 10, reader := fun net => .ok ([], net) } []
      [⟨1, { startAddress := 5 }, ⟨0⟩⟩] [] := ⟨[], [], [], [], rfl, rfl, rfl⟩
  have hinside := hall scripted [] (sixth []) events _ hrun _ _ _
    (.current ⟨[], [], [], [], [], hreads, rfl, by decide⟩)
  exact absurd hinside.1 (by decide)

end Publisher

end ModbusPp

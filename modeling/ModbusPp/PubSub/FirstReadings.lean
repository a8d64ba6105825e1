import ModbusPp.PubSub.QuietSources

/-! First readings. A subscriber learns the initial value in the first scan after it was
accepted only if there is something new in it: whether there is a first reading depends on
the baseline, which belongs to the source, and not to the subscription. -/

namespace ModbusPp

open Foundation

variable {τ : Type}

/-- The source has not been scanned yet, or was read without a register of the subscription,
or one of its registers is now more than the dead band away. -/
def DataSource.News (source : DataSource τ) (request : SubscriptionRequest)
    (current : List UInt16) : Prop :=
  source.hasBaseline = false ∨ ¬source.Shows request ∨
    ∃ (i : ℕ) (x y : UInt16), (source.registers request source.lastValues)[i]? = some x ∧
      (source.registers request current)[i]? = some y ∧
      request.deadBand.below (registerDistance y x) = true

namespace Publisher

variable {W : World τ} {s s' : Publishing τ} {request : SubscriptionRequest} {source : DataSource τ}
  {sub : ActiveSubscription}

theorem changed_iff_news {current : List UInt16} :
    changed request.deadBand (source.registers request current) (source.baseline request) = true ↔
      source.News request current := by
  rw [changed, Bool.or_eq_true, DataSource.News, DataSource.baseline]
  cases source.hasBaseline with
  | false => exact iff_of_true (.inl rfl) (.inl rfl)
  | true =>
    have hnot : ¬true = false := by decide
    rw [if_pos rfl, or_iff_right hnot, List.isEmpty_iff, DataSource.registers_eq_nil_iff,
      List.any_eq_true]
    refine or_congr_right ⟨?_, ?_⟩
    · rintro ⟨⟨y, x⟩, hmem, hbelow⟩
      obtain ⟨i, hi⟩ := List.mem_iff_getElem?.mp hmem
      obtain ⟨hy, hx⟩ := List.getElem?_zip_eq_some.mp hi
      exact ⟨i, x, y, hx, hy, hbelow⟩
    · rintro ⟨i, x, y, hx, hy, hbelow⟩
      exact ⟨(y, x), List.mem_of_getElem? (List.getElem?_zip_eq_some.mpr ⟨hy, hx⟩), hbelow⟩

theorem perform_keeps_sub {call : PublisherCall τ} {outcome : PublisherOutcome}
    (hother : call.isScan = false) (hkept : call ≠ .remove sub.id)
    (hsub : sub ∈ s.publisher.subscriptions) (h : perform W call s = .ok (outcome, s')) :
    sub ∈ s'.publisher.subscriptions := by
  cases call with
  | register start count reader =>
    cases h
    exact hsub
  | accept request =>
    obtain ⟨-, hsubs, -, -, -⟩ := perform_accept h
    rw [hsubs]
    exact List.mem_append_left _ hsub
  | remove id =>
    obtain ⟨result, -, -, hsubs, -, -, -⟩ := perform_remove h
    rw [hsubs, List.mem_filter]
    have hne : sub.id ≠ id := fun heq => hkept (heq ▸ rfl)
    exact ⟨hsub, decide_eq_true hne⟩
  | scan => cases hother

theorem run_keeps_sub {calls : List (PublisherCall τ)} {events : List (PublisherEvent τ)}
    (hother : ∀ e ∈ events, e.call.isScan = false ∧ e.call ≠ .remove sub.id)
    (hsub : sub ∈ s.publisher.subscriptions) (hrun : runAll (step W) calls s = .ok (events, s')) :
    sub ∈ s'.publisher.subscriptions := by
  induction calls generalizing s events with
  | nil =>
    cases hrun
    exact hsub
  | cons call calls ih =>
    obtain ⟨e, s₁, events', hfirst, hothers, rfl⟩ := runAll_cons.mp hrun
    obtain ⟨rfl, -, -, hperform⟩ := step_event hfirst
    obtain ⟨⟨hscan, hkept⟩, hlater⟩ := List.forall_mem_cons.mp hother
    exact ih hlater (perform_keeps_sub hscan hkept hsub hperform) hothers

/-- In every run, the first scan after the acceptance of an OnChange subscription tells it
its registers if and only if there is news of them in a source that contains the first one. -/
theorem first_reading_iff {calls : List (PublisherCall τ)}
    {earlier between later : List (PublisherEvent τ)} {accepted scanned : PublisherEvent τ}
    {net : τ} {last : Publishing τ} {id : SubscriptionID}
    (hrun : runAll (step W) calls ⟨{}, net⟩ =
      .ok (earlier ++ accepted :: (between ++ scanned :: later), last))
    (haccept : accepted.call = .accept request) (hid : accepted.outcome = .accepted (.value id))
    (hbetween : ∀ e ∈ between, e.call.isScan = false ∧ e.call ≠ .remove id)
    (hscan : scanned.call = .scan) (htrigger : request.trigger = .onChange) :
    ∃ j, scanned.before.publisher.subscriptions[j]? =
      some ⟨id, request, (W.now accepted.before.net).1⟩ ∧
      (scanned.issuedFor j ≠ [] ↔ ∃ (k : ℕ) (source : DataSource τ) (current : List UInt16),
        scanned.before.publisher.sources[k]? = some source ∧
        scanned.after.publisher.sources[k]? =
          some { source with lastValues := current, hasBaseline := true } ∧
        source.Covers request ∧ source.News request current) := by
  obtain ⟨-, after, -, -, haccepted, hafter⟩ := run_at hrun
  obtain ⟨others, -, -, hothers, hscanned, -⟩ := run_at hafter
  rw [haccept] at haccepted
  rw [hscan] at hscanned
  obtain ⟨houtcome, hsubs, -, -, -⟩ := perform_accept haccepted
  have hmem : (⟨id, request, (W.now accepted.before.net).1⟩ : ActiveSubscription) ∈
      accepted.after.publisher.subscriptions := by
    rw [hid] at houtcome
    cases houtcome
    rw [hsubs]
    exact List.mem_append_right _ (List.mem_singleton.mpr rfl)
  obtain ⟨j, hj⟩ := List.mem_iff_getElem?.mp (run_keeps_sub hbetween hmem hothers)
  refine ⟨j, hj, ?_⟩
  rw [ne_eq, silent_iff hscanned hj htrigger]
  simp only [not_forall, exists_prop, Bool.not_eq_false, changed_iff_news]

theorem first_reading_unscanned : ∃ earlier scanned last,
    runAll (step scripted) [.register 0 1 readOne, .accept {}, .scan] ⟨{}, [5]⟩ =
      .ok (earlier ++ [scanned], last) ∧
    ∃ j, (scanned.before.publisher.subscriptions[j]?).map ActiveSubscription.id = some 1 ∧
      scanned.issuedFor j ≠ [] := by
  obtain ⟨registered, accepted, scanned, last, hrun, haccept, hid, hscan, hnews⟩ :
      ∃ registered accepted scanned last,
        runAll (step scripted) [.register 0 1 readOne, .accept {}, .scan] ⟨{}, [5]⟩ =
          .ok ([registered] ++ accepted :: ([] ++ scanned :: []), last) ∧
        accepted.call = .accept {} ∧ accepted.outcome = .accepted (.value 1) ∧
        scanned.call = .scan ∧
        ∃ (k : ℕ) (source : DataSource (List UInt16)) (current : List UInt16),
          scanned.before.publisher.sources[k]? = some source ∧
          scanned.after.publisher.sources[k]? =
            some { source with lastValues := current, hasBaseline := true } ∧
          source.Covers {} ∧ source.News {} current :=
    ⟨_, _, _, _, rfl, rfl, rfl, rfl, 0, _, [5], rfl, rfl, by decide, .inl rfl⟩
  obtain ⟨j, hj, hiff⟩ :=
    first_reading_iff (W := scripted) hrun haccept hid (List.forall_mem_nil _) hscan rfl
  exact ⟨[registered, accepted], scanned, last, hrun, j, by rw [hj]; rfl, hiff.mpr hnews⟩

/-- The source was scanned before the subscription came, and it is not told the register. -/
theorem late_subscriber_untold : ∃ earlier accepted scanned last,
    runAll (step scripted) [.register 0 1 readOne, .scan, .accept {}, .scan] ⟨{}, [5, 5]⟩ =
      .ok (earlier ++ [accepted, scanned], last) ∧
    accepted.call = .accept {} ∧ accepted.outcome = .accepted (.value 1) ∧
    scanned.call.isScan = true ∧
    scanned.before.publisher.Full ∧
    scanned.before.publisher.sources.map (fun source => (source.start, source.count)) = [(0, 1)] ∧
    scanned.before.publisher.subscriptions.map ActiveSubscription.id = [1] ∧
    scanned.issuedFor 0 = [] :=
  ⟨[_, _], _, _, _, rfl, rfl, rfl, rfl, readOne_full (List.forall_mem_singleton.mpr ⟨rfl, rfl⟩),
    rfl, rfl, rfl⟩

end Publisher

end ModbusPp

import ModbusPp.Pipeline.Steps

/-! Callbacks of `submit_sync`. They refer to local variables of the call, so the request
must be out of every hand when the call returns. A request is in the queue or in the hand
of one thread; a call that returns with its result has had it invoked, and a call that
gives up takes it out of the queue, which does not help if another thread has taken it
out before and has not come to the callback yet. -/

namespace ModbusPp

open Foundation

/-- The submissions the requests belong to. -/
def numbers (rs : List PendingRequest) : List ℕ := rs.map (·.callback.submission)

@[simp] theorem numbers_nil : numbers [] = [] := rfl

@[simp] theorem numbers_cons (r : PendingRequest) (rs : List PendingRequest) :
    numbers (r :: rs) = r.callback.submission :: numbers rs := rfl

@[simp] theorem numbers_append (rs rs' : List PendingRequest) :
    numbers (rs ++ rs') = numbers rs ++ numbers rs' :=
  List.map_append

namespace Control

/-- On their way into the queue. -/
def entering : Control → List PendingRequest
  | sending r _ | inserting r _ => [r]
  | _ => []

/-- In the hand of the thread: not in the queue yet, or taken off it. -/
def holding : Control → List PendingRequest
  | sending r _ | inserting r _ | dispatching r _ _ => [r]
  | expiring rs _ => rs
  | _ => []

/-- The `submit_sync` that is polling or about to return. -/
def syncCall : Control → Option SyncCall
  | receiving call | removing _ call | dispatching _ _ call | sweeping
      call | expiring _ call => call
  | waiting call | cancelling call => some call
  | _ => none

theorem entering_subset (k : Control) : k.entering ⊆ k.holding := by
  cases k <;> simp [entering, holding]

theorem entering_of_syncCall {k : Control} {call : SyncCall}
    (h : k.syncCall = some call) : k.entering = [] := by
  cases k with
  | idle | sending | inserting => cases h
  | _ => rfl

theorem afterPoll_holding (call : Option SyncCall) :
    (afterPoll call).holding = [] := by cases call <;> rfl

theorem afterPoll_syncCall (call : Option SyncCall) :
    (afterPoll call).syncCall = call := by cases call <;> rfl

end Control

namespace Sharing

/-- The submissions that are over: the callback was invoked, or the call has returned. -/
def settled (s : Sharing) : List ℕ := s.invoked.map (·.callback.submission) ++ s.finished

/-- The submissions in the queue and in the hand of a thread. -/
def tokens (k : Control) (s : Sharing) : List ℕ :=
  numbers k.holding ++ numbers s.pipeline.queue.pending

variable {s : Sharing} {n : ℕ}

theorem mem_settled_invoke {callback : Callback} {result : Result PDU}
    (h : n ∈ (s.invoke callback result).settled) : n ∈ s.settled ∨ n = callback.submission := by
  rcases List.mem_append.mp h with hinvoked | hfinished
  · obtain ⟨i, hi, rfl⟩ := List.mem_map.mp hinvoked
    rcases List.mem_append.mp hi with hbefore | hnow
    · exact .inl (List.mem_append_left _ (List.mem_map_of_mem hbefore))
    · unfold Callback.invoke at hnow
      split_ifs at hnow
      · rw [List.mem_singleton.mp hnow]
        exact .inr rfl
      · cases hnow
  · exact .inl (List.mem_append_right _ hfinished)

theorem mem_settled_returns {submission : ℕ} {result : Result PDU} :
    n ∈ (s.returns submission result).settled ↔ n ∈ s.settled ∨ n = submission := by
  simp [settled, returns, finished, or_assoc]

theorem mem_settled_fails {r : PendingRequest} {sync : Bool} {ec : StdErrorCode}
    (h : n ∈ (s.fails r sync ec).settled) : n ∈ s.settled ∨ n = r.callback.submission := by
  cases sync with
  | false => exact .inl h
  | true => exact mem_settled_returns.mp h

theorem dangling_invoke {callback : Callback} {result : Result PDU}
    (h : callback.submission ∉ s.settled) :
    (s.invoke callback result).dangling = s.dangling := by
  have hlive : callback.submission ∉ s.finished := fun hmem => h (List.mem_append_right _ hmem)
  cases hset : callback.isSet <;> simp [invoke, Callback.invoke, hset, hlive]

theorem resultOf_settled {result : Result PDU} (h : s.resultOf n = some result) :
    n ∈ s.settled := by
  obtain ⟨i, hfind, -⟩ := Option.map_eq_some_iff.mp h
  have hmem := List.mem_reverse.mp (List.mem_of_find?_eq_some hfind)
  have hnumber : i.callback.submission = n := by simpa using List.find?_some hfind
  exact List.mem_append_left _ (List.mem_map.mpr ⟨i, hmem, hnumber⟩)

end Sharing

namespace Control

/-- What is known of a thread: no submission is twice in its hand and in the queue, what
is there is not over, and its own call is in the queue under its id at most. -/
structure Own (k : Control) (s : Sharing) : Prop where
  nodup : (s.tokens k).Nodup
  issued : ∀ n ∈ s.tokens k, n < s.submissions
  unsettled : ∀ n ∈ s.tokens k, n ∉ s.settled
  called : ∀ call, k.syncCall = some call → call.submission < s.submissions ∧
    ∀ r ∈ s.pipeline.queue.pending, r.callback.submission = call.submission → r.id = call.id

/-- Two threads have different submissions in hand. -/
structure Apart (k k₂ : Control) : Prop where
  holding : ∀ n ∈ numbers k.holding, n ∉ numbers k₂.holding
  called : ∀ call, k.syncCall = some call → call.submission ∉ numbers k₂.entering

/-- What a step does to the submissions: it hands them on, from the queue or into it, and
ends some of those in hand. -/
structure Moves (k : Control) (s : Sharing) (k' : Control) (s' : Sharing) : Prop where
  grows : s.submissions ≤ s'.submissions
  tokens : (s'.tokens k').Subperm
    (List.range' s.submissions (s'.submissions - s.submissions) ++ s.tokens k)
  settled : ∀ n ∈ s'.settled, n ∈ s.settled ∨ n ∉ s'.tokens k' ∧ n < s.submissions ∧
    (n ∈ numbers k.holding ∨ ∃ call, k = cancelling call ∧ n = call.submission)
  queue : ∀ r ∈ s'.pipeline.queue.pending, r ∈ s.pipeline.queue.pending ∨ r ∈ k.entering
  entering : ∀ n ∈ numbers k'.entering, s.submissions ≤ n ∨ n ∈ numbers k.entering
  called : ∀ call, k'.syncCall = some call → k.syncCall = some call ∨
    ∃ r, k.entering = [r] ∧ call.submission = r.callback.submission ∧ call.id = r.id
  dangling : s'.dangling = s.dangling

section moves

variable {m : Surroundings} {s s' : Sharing} {k k' : Control}

theorem Moves.of_same (hissued : s'.submissions = s.submissions)
    (htokens : (s'.tokens k').Subperm (s.tokens k))
    (hsettled : ∀ n ∈ s'.settled, n ∈ s.settled ∨ n ∉ s'.tokens k' ∧ n < s.submissions ∧
      (n ∈ numbers k.holding ∨ ∃ call, k = cancelling call ∧ n = call.submission))
    (hqueue : ∀ r ∈ s'.pipeline.queue.pending, r ∈ s.pipeline.queue.pending ∨ r ∈ k.entering)
    (hentering : ∀ n ∈ numbers k'.entering, n ∈ numbers k.entering)
    (hcalled : ∀ call, k'.syncCall = some call → k.syncCall = some call ∨
      ∃ r, k.entering = [r] ∧ call.submission = r.callback.submission ∧ call.id = r.id)
    (hdangling : s'.dangling = s.dangling) : Moves k s k' s' where
  grows := hissued.ge
  tokens := by
    rw [hissued, Nat.sub_self, List.range'_zero, List.nil_append]
    exact htokens
  settled := hsettled
  queue := hqueue
  entering n hn := .inr (hentering n hn)
  called := hcalled
  dangling := hdangling

theorem Moves.of_drop (hown : Own k s) (hk' : k'.holding = [])
    (hcall : ∀ call, k'.syncCall = some call → k.syncCall = some call)
    (hissued : s'.submissions = s.submissions) (hqueue : s'.pipeline.queue = s.pipeline.queue)
    (hsettled : ∀ n ∈ s'.settled, n ∈ s.settled ∨ n ∈ numbers k.holding)
    (hdangling : s'.dangling = s.dangling) :
    Moves k s k' s' := by
  have htokens : s'.tokens k' = numbers s.pipeline.queue.pending := by
    simp [Sharing.tokens, hk', hqueue]
  have hentering : k'.entering = [] := List.subset_nil.mp (hk' ▸ entering_subset k')
  refine .of_same hissued ?_ ?_ ?_ ?_ (fun call hcall' => .inl (hcall call hcall')) hdangling
  · rw [htokens]
    exact (List.sublist_append_right _ _).subperm
  · intro n hn
    refine (hsettled n hn).imp_right fun hheld =>
      ⟨?_, hown.issued n (List.mem_append_left _ hheld), .inl hheld⟩
    rw [htokens]
    exact fun hqueued => (List.nodup_append.mp hown.nodup).2.2 n hheld n hqueued rfl
  · rw [hqueue]
    exact fun r hr => .inl hr
  · rw [hentering]
    exact fun n hn => by cases hn

theorem idle_moves (hown : Own .idle s) : Moves .idle s (stepIdle m s).1 (stepIdle m s).2 := by
  have hstart (r : PendingRequest) (sync : Bool) (hr : r.callback.submission = s.submissions) :
      Moves .idle s (.sending r sync) s.start := by
    have htokens : s.start.tokens (.sending r sync) = s.submissions :: s.tokens .idle := by
      simp [Sharing.tokens, holding, hr, Sharing.start, Pipeline.advance]
    refine ⟨Nat.le_succ _, ?_, fun n hn => .inl hn, fun r hr => .inl hr, ?_, ?_, rfl⟩
    · rw [htokens, Sharing.start, Nat.add_sub_cancel_left, List.range'_one]
      exact List.Subperm.refl _
    · intro n hn
      exact .inl (by simp_all [entering])
    · intro call hcall
      cases hcall
  unfold stepIdle
  split
  · exact hstart _ _ rfl
  · exact .of_drop hown rfl (fun call hcall => hcall) rfl rfl (fun n hn => .inl hn) rfl
  · exact hstart _ _ rfl

theorem fails_moves {r : PendingRequest} {sync : Bool} {ec : StdErrorCode}
    (hown : Own k s) (hheld : k.holding = [r]) :
    Moves k s .idle (s.fails r sync ec) := by
  refine .of_drop hown rfl (fun call hcall => by cases hcall) (by cases sync <;> rfl)
    (by cases sync <;> rfl)
    (fun n hn => (Sharing.mem_settled_fails hn).imp_right ?_) (by cases sync <;> rfl)
  rintro rfl
  rw [hheld]
  exact List.mem_singleton_self _

theorem emplace_pending (queue : RequestQueue) (r : PendingRequest) :
    (queue.emplace r).pending = queue.pending ∨
    (queue.emplace r).pending = queue.pending ++ [r] := by
  unfold RequestQueue.emplace
  split_ifs
  · exact .inl rfl
  · exact .inr rfl

theorem inserting_moves {r : PendingRequest} {sync : Bool} (hown : Own (.inserting r sync) s) :
    Moves (.inserting r sync) s (stepInserting r sync s).1 (stepInserting r sync s).2 := by
  by_cases hfull : s.pipeline.queue.Full
  · rw [stepInserting_full hfull]
    exact fails_moves hown rfl
  · rw [stepInserting_room hfull]
    have hpending := emplace_pending s.pipeline.queue r
    have hholding :
        (if sync then receiving (some ⟨r.callback.submission, r.id⟩) else idle).holding = [] := by
      cases sync <;> rfl
    have hentering :
        (if sync then receiving (some ⟨r.callback.submission, r.id⟩) else idle).entering = [] := by
      cases sync <;> rfl
    refine .of_same rfl ?_ (fun n hn => .inl hn) ?_ ?_ ?_ rfl
    · change List.Subperm (numbers _ ++ numbers (s.pipeline.queue.emplace r).pending)
        (r.callback.submission :: numbers s.pipeline.queue.pending)
      rw [hholding, numbers_nil, List.nil_append]
      rcases hpending with hsame | hadded
      · rw [hsame]
        exact (List.sublist_cons_self _ _).subperm
      · rw [hadded, numbers_append, numbers_cons, numbers_nil]
        exact (List.perm_append_singleton _ _).subperm
    · intro r' hr'
      change r' ∈ (s.pipeline.queue.emplace r).pending at hr'
      rcases hpending with hsame | hadded
      · exact .inl (hsame ▸ hr')
      · rw [hadded, List.mem_append] at hr'
        exact hr'
    · rw [hentering]
      exact fun n hn => by cases hn
    · intro call hcall
      cases sync with
      | false => cases hcall
      | true =>
        cases hcall
        exact .inr ⟨r, rfl, rfl, rfl⟩

theorem removing_moves {pdu : PDU} {call : Option SyncCall} (hown : Own (.removing pdu call) s) :
    Moves (.removing pdu call) s (stepRemoving pdu call s).1 (stepRemoving pdu call s).2 := by
  unfold stepRemoving RequestQueue.remove
  cases hfind : s.pipeline.queue.find (Pipeline.correlationOf pdu) with
  | none =>
    refine .of_drop hown (afterPoll_holding call) ?_ rfl rfl (fun n hn => .inl hn) rfl
    intro c hc
    rwa [afterPoll_syncCall] at hc
  | some r =>
    have hperm := s.pipeline.queue.perm_find_erase (Pipeline.correlationOf pdu)
    rw [hfind] at hperm
    refine .of_same rfl ?_ (fun n hn => .inl hn)
      (fun r' hr' => .inl (RequestQueue.mem_erase.mp hr').1)
      (fun n hn => by cases hn) (fun c hc => .inl hc) rfl
    change List.Subperm
      (numbers ([r] ++ (s.pipeline.queue.erase (Pipeline.correlationOf pdu)).pending))
      (numbers s.pipeline.queue.pending)
    exact (hperm.map _).symm.subperm

theorem sweeping_moves {call : Option SyncCall} {expired : List PendingRequest}
    {queue : RequestQueue} {now : Timestamp}
    (h : s.pipeline.queue.removeExpired now = .ok (expired, queue)) :
    Moves (.sweeping call) s (.expiring expired call) (s.withQueue queue) := by
  obtain ⟨hexpired, hkept, -⟩ := RequestQueue.removeExpired_eq h
  refine .of_same rfl ?_ (fun n hn => .inl hn) ?_ (fun n hn => by cases hn)
    (fun c hc => .inl hc) rfl
  · change List.Subperm (numbers expired ++ numbers queue.pending)
      (numbers s.pipeline.queue.pending)
    rw [hexpired, hkept, ← numbers_append]
    have hsplit := List.filter_append_perm (fun r => decide (PendingRequest.Overdue now r))
      s.pipeline.queue.pending
    simp only [decide_not]
    exact (hsplit.map _).subperm
  · intro r hr
    change r ∈ queue.pending at hr
    rw [hkept] at hr
    exact .inl (List.mem_of_mem_filter hr)

theorem expiring_moves {call : Option SyncCall} {r : PendingRequest}
    {rs : List PendingRequest} {result : Result PDU} (hown : Own (.expiring (r :: rs) call) s) :
    Moves (.expiring (r :: rs) call) s (.expiring rs call) (s.invoke r.callback result) := by
  have hr : r.callback.submission ∈ s.tokens (.expiring (r :: rs) call) := List.mem_cons_self
  refine .of_same rfl ?_ (fun n hn => (Sharing.mem_settled_invoke hn).imp_right ?_)
    (fun r hr => .inl hr)
    (fun n hn => by cases hn) (fun c hc => .inl hc) (Sharing.dangling_invoke (hown.unsettled _ hr))
  · exact (List.sublist_cons_self r.callback.submission _).subperm
  · rintro rfl
    exact ⟨(List.nodup_cons.mp hown.nodup).1, hown.issued _ hr, .inl List.mem_cons_self⟩

theorem cancelling_moves {call : SyncCall} {result : Result PDU} (hown : Own (.cancelling call) s) :
    Moves (.cancelling call) s .idle
      ((s.withQueue (s.pipeline.queue.cancel call.id).2).returns call.submission result) := by
  obtain ⟨hissued, hid⟩ := hown.called call rfl
  refine .of_same rfl ?_ (fun n hn => (Sharing.mem_settled_returns.mp hn).imp_right ?_)
    (fun r hr => .inl (RequestQueue.mem_erase.mp hr).1) (fun n hn => by cases hn)
      (fun c hc => by cases hc) rfl
  · change List.Subperm (numbers (s.pipeline.queue.erase call.id).pending)
      (numbers s.pipeline.queue.pending)
    exact (List.filter_sublist.map _).subperm
  · rintro rfl
    refine ⟨fun hmem => ?_, hissued, .inr ⟨call, rfl, rfl⟩⟩
    -- the call's own request, if it was in the queue, was under the id that was erased
    obtain ⟨r, hr, hnumber⟩ := List.mem_map.mp hmem
    obtain ⟨hr, hne⟩ := RequestQueue.mem_erase.mp hr
    exact hne (hid r hr hnumber)

theorem waiting_moves {call : SyncCall} (hown : Own (.waiting call) s)
    (h : step m (.waiting call) s = .ok (k', s')) :
    Moves (.waiting call) s k' s' := by
  simp only [step] at h
  split at h
  · rename_i result hresult
    cases h
    refine .of_drop hown rfl (fun c hc => by cases hc) rfl rfl (fun n hn => .inl ?_) rfl
    rcases Sharing.mem_settled_returns.mp hn with hn | rfl
    · exact hn
    · exact Sharing.resultOf_settled hresult
  · cases h
    cases m.late <;> exact .of_drop hown rfl (fun c hc => hc) rfl rfl (fun n hn => .inl hn) rfl

theorem stepReceiving_place {received : Result (List UInt8)} {call : Option SyncCall}
    (h : stepReceiving received call = .ok k') : k'.holding = [] ∧ k'.syncCall = call := by
  unfold stepReceiving at h
  split at h
  · cases h
    exact ⟨afterPoll_holding call, afterPoll_syncCall call⟩
  · obtain ⟨decoded, -, h⟩ := bind_eq_ok.mp h
    cases decoded with
    | failure ec =>
      cases h
      exact ⟨afterPoll_holding call, afterPoll_syncCall call⟩
    | value pdu =>
      cases h
      exact ⟨rfl, rfl⟩

theorem step_moves (hown : Own k s) (h : step m k s = .ok (k', s')) : Moves k s k' s' := by
  cases k with
  | idle =>
    have hstep : stepIdle m s = (k', s') := Except.ok.inj h
    simpa only [hstep] using idle_moves (m := m) hown
  | sending r sync =>
    simp only [step] at h
    split_ifs at h
    · cases h
      exact .of_same rfl (List.Subperm.refl _) (fun n hn => .inl hn)
        (fun r hr => .inl hr) (fun n hn => hn)
        (fun c hc => .inl hc) rfl
    · cases h
      exact fails_moves hown rfl
  | inserting r sync =>
    have hstep : stepInserting r sync s = (k', s') := Except.ok.inj h
    simpa only [hstep] using inserting_moves hown
  | receiving call =>
    obtain ⟨next, hnext, h⟩ := bind_eq_ok.mp h
    cases h
    have hplace : k'.holding = [] ∧ k'.syncCall = call := stepReceiving_place hnext
    refine .of_drop hown hplace.1 (fun c hc => ?_) rfl rfl (fun n hn => .inl hn) rfl
    rwa [hplace.2] at hc
  | removing pdu call =>
    have hstep : stepRemoving pdu call s = (k', s') := Except.ok.inj h
    simpa only [hstep] using removing_moves hown
  | dispatching r pdu call =>
    obtain ⟨latencyUs, -, h⟩ := bind_eq_ok.mp h
    cases h
    have hheld : r.callback.submission ∈ s.tokens (.dispatching r pdu call) := List.mem_cons_self
    refine .of_drop hown rfl (fun c hc => hc) rfl rfl
      (fun n hn => (Sharing.mem_settled_invoke hn).imp_right ?_)
      (Sharing.dangling_invoke (s := s.complete latencyUs) (hown.unsettled _ hheld))
    rintro rfl
    exact List.mem_singleton_self _
  | sweeping call =>
    obtain ⟨⟨expired, queue⟩, hsweep, h⟩ := bind_eq_ok.mp h
    cases h
    exact sweeping_moves hsweep
  | expiring rs call =>
    cases rs with
    | nil =>
      cases h
      refine .of_drop hown (afterPoll_holding call) (fun c hc => ?_) rfl rfl
        (fun n hn => .inl hn) rfl
      rwa [afterPoll_syncCall] at hc
    | cons r rs =>
      cases h
      exact expiring_moves hown
  | waiting call => exact waiting_moves hown h
  | cancelling call =>
    cases h
    exact cancelling_moves hown

end moves

/-! ### The proof outline -/

section outline

variable {m : Surroundings} {s s' : Sharing} {k k' k₂ : Control}

/-- Beside a call that gives up, no other thread has its request in hand. -/
def Admits (_ : Surroundings) (k k₂ : Control) : Prop :=
  ∀ call, k = cancelling call → call.submission ∉ numbers k₂.holding

/-- Nothing has dangled, and what is over was begun. -/
def outline : Outline Control Sharing where
  shared s := s.dangling = [] ∧ ∀ n ∈ s.settled, n < s.submissions
  own := Own
  pair := Apart

theorem Moves.mem_tokens (h : Moves k s k' s') {n : ℕ} (hn : n ∈ s'.tokens k') :
    s.submissions ≤ n ∧ n < s'.submissions ∨ n ∈ s.tokens k := by
  have hgrows := h.grows
  have hmem := h.tokens.subset hn
  rw [List.mem_append, List.mem_range'_1] at hmem
  exact hmem.imp_left fun hnew => ⟨hnew.1, by omega⟩

theorem Moves.own (h : Moves k s k' s') (hown : Own k s)
    (hsettled : ∀ n ∈ s.settled, n < s.submissions) :
    Own k' s' := by
  have hgrows := h.grows
  have hnodup : (s'.tokens k').Nodup := by
    obtain ⟨l, hperm, hsublist⟩ := h.tokens
    refine hperm.nodup_iff.mp
      (hsublist.nodup (List.nodup_append.mpr ⟨List.nodup_range', hown.nodup, ?_⟩))
    rintro n hnew _ hold rfl
    exact absurd (hown.issued n hold) (Nat.not_lt.mpr (List.mem_range'_1.mp hnew).1)
  refine ⟨hnodup, fun n hn => ?_, fun n hn hover => ?_, fun call hcall => ?_⟩
  · rcases h.mem_tokens hn with ⟨-, hnew⟩ | hold
    · exact hnew
    · exact lt_of_lt_of_le (hown.issued n hold) hgrows
  · rcases h.settled n hover with hbefore | ⟨hgone, -⟩
    · rcases h.mem_tokens hn with ⟨hnew, -⟩ | hold
      · exact absurd (hsettled n hbefore) (Nat.not_lt.mpr hnew)
      · exact hown.unsettled n hold hbefore
    · exact hgone hn
  · rcases h.called call hcall with hsame | ⟨r, hr, hnumber, hid⟩
    · obtain ⟨hissued, hqueued⟩ := hown.called call hsame
      refine ⟨lt_of_lt_of_le hissued hgrows, fun r hr => ?_⟩
      rcases h.queue r hr with hr | hr
      · exact hqueued r hr
      · rw [entering_of_syncCall hsame] at hr
        cases hr
    · have hheld : r.callback.submission ∈ numbers k.holding :=
        List.mem_map_of_mem (entering_subset k (hr ▸ List.mem_singleton_self r))
      rw [hnumber, hid]
      refine ⟨lt_of_lt_of_le (hown.issued _ (List.mem_append_left _ hheld)) hgrows,
        fun r' hr' hsame => ?_⟩
      rcases h.queue r' hr' with hr' | hr'
      · have hqueued : r.callback.submission ∈ numbers s.pipeline.queue.pending :=
          hsame ▸ List.mem_map_of_mem hr'
        exact absurd rfl ((List.nodup_append.mp hown.nodup).2.2 _ hheld _ hqueued)
      · rw [hr] at hr'
        rw [List.mem_singleton.mp hr']

theorem stable_advances (hshared : outline.shared s) (hown : Own k s)
    (h : step m k s = .ok (k', s')) :
    outline.shared s' ∧ Own k' s' := by
  obtain ⟨hdangling, hsettled⟩ := hshared
  have hmoves := step_moves hown h
  refine ⟨⟨hmoves.dangling.trans hdangling, fun n hn => ?_⟩, hmoves.own hown hsettled⟩
  rcases hmoves.settled n hn with hbefore | ⟨-, hissued, -⟩
  · exact lt_of_lt_of_le (hsettled n hbefore) hmoves.grows
  · exact lt_of_lt_of_le hissued hmoves.grows

theorem stable_undisturbed (hshared : outline.shared s) (hown : Own k s)
    (hown₂ : Own k₂ s) (hapart : Apart k k₂) (hapart₂ : Apart k₂ k)
    (hadmits : Admits m k k₂) (h : step m k s = .ok (k', s')) :
    Own k₂ s' ∧ Apart k' k₂ ∧ Apart k₂ k' := by
  obtain ⟨-, hsettled⟩ := hshared
  have hmoves := step_moves hown h
  have hown' := hmoves.own hown hsettled
  -- what the other thread holds is neither new nor in the hand or the queue of this one
  have hheld (n : ℕ) (hn : n ∈ numbers k₂.holding) : n ∉ s'.tokens k' := by
    have hn₂ : n ∈ s.tokens k₂ := List.mem_append_left _ hn
    intro hmem
    rcases hmoves.mem_tokens hmem with ⟨hnew, -⟩ | hold
    · exact absurd (hown₂.issued n hn₂) (Nat.not_lt.mpr hnew)
    · rcases List.mem_append.mp hold with hold | hold
      · exact hapart.holding n hold hn
      · exact (List.nodup_append.mp hown₂.nodup).2.2 n hn n hold rfl
  have hqueued (n : ℕ) (hn : n ∈ numbers s'.pipeline.queue.pending) : n ∈ s'.tokens k' :=
    List.mem_append_right _ hn
  refine ⟨⟨?_, fun n hn => ?_, fun n hn hover => ?_, fun call hcall => ?_⟩,
    ⟨fun n hn hn₂ => ?_, fun call hcall hn => ?_⟩, ⟨fun n hn hn' => ?_, fun call hcall hn => ?_⟩⟩
  · refine List.nodup_append.mpr
      ⟨(List.nodup_append.mp hown₂.nodup).1, (List.nodup_append.mp hown'.nodup).2.1, ?_⟩
    rintro n hn _ hn' rfl
    exact hheld n hn (hqueued n hn')
  · rcases List.mem_append.mp hn with hn | hn
    · exact lt_of_lt_of_le (hown₂.issued n (List.mem_append_left _ hn)) hmoves.grows
    · exact hown'.issued n (hqueued n hn)
  · rcases List.mem_append.mp hn with hn | hn
    · rcases hmoves.settled n hover with hbefore | ⟨-, -, hhand | ⟨call, hk, rfl⟩⟩
      · exact hown₂.unsettled n (List.mem_append_left _ hn) hbefore
      · exact hapart.holding n hhand hn
      · exact hadmits call hk hn
    · exact hown'.unsettled n (hqueued n hn) hover
  · obtain ⟨hissued, hid⟩ := hown₂.called call hcall
    refine ⟨lt_of_lt_of_le hissued hmoves.grows, fun r hr hsame => ?_⟩
    rcases hmoves.queue r hr with hr | hr
    · exact hid r hr hsame
    · exact absurd (hsame ▸ List.mem_map_of_mem hr) (hapart₂.called call hcall)
  · exact hheld n hn₂ (List.mem_append_left _ hn)
  · have hentering :=
      List.map_subset (fun r : PendingRequest => r.callback.submission) (entering_subset k₂) hn
    rcases hmoves.called call hcall with hsame | ⟨r, hr, hnumber, -⟩
    · exact hapart.called call hsame hn
    · refine hapart.holding call.submission ?_ hentering
      exact hnumber ▸ List.mem_map_of_mem (entering_subset k (hr ▸ List.mem_singleton_self r))
  · exact hheld n hn (List.mem_append_left _ hn')
  · rcases hmoves.entering _ hn with hnew | hold
    · exact absurd (hown₂.called call hcall).1 (Nat.not_lt.mpr hnew)
    · exact hapart₂.called call hcall hold

theorem outline_stable : outline.Stable step Admits :=
  ⟨stable_advances, stable_undisturbed⟩

end outline

end Control

/-! ### Runs -/

section runs

variable {ι : Type}

/-- A new pipeline, and threads that have not begun. -/
def Sharing.begin (config : PipelineConfig) : Threads ι Control Sharing where
  control _ := .idle
  shared := { pipeline := .create config }

theorem Control.outline_begin (config : PipelineConfig) :
    Control.outline.Holds (ι := ι) (Sharing.begin config) := by
  refine ⟨⟨rfl, List.forall_mem_nil _⟩, fun t => ?_, fun t t' _ => ?_⟩
  · refine ⟨List.nodup_nil, List.forall_mem_nil _, List.forall_mem_nil _, fun call hcall => ?_⟩
    cases hcall
  · refine ⟨List.forall_mem_nil _, fun call hcall => ?_⟩
    cases hcall

variable [DecidableEq ι]

/-- Whatever the threads call, and however their steps alternate: if no call gives up
while another thread has its request in hand, no callback is invoked after its call has
returned. -/
theorem no_callback_dangles (config : PipelineConfig) (turns : List (ι × Surroundings))
    {os : List Unit} {s' : Threads ι Control Sharing}
    (hprompt : Guarded (Threads.act Control.step) (Outline.Admitted Control.Admits)
      turns (Sharing.begin config))
    (hrun : runAll (Threads.act Control.step) turns (Sharing.begin config) = .ok (os, s')) :
    s'.shared.dangling = [] :=
  (Control.outline_stable.runAll turns (Control.outline_begin config) hprompt hrun).shared.1

end runs

/-- A read of one register. -/
def oneRegister : PDU := .makeStandard .readHoldingRegisters [0, 0, 0, 1]

/-- One thread calls, receives nothing, and gives up; the other has only begun. -/
def givesUp : List (Bool × Surroundings) :=
  [(false, { call := .submitSync oneRegister 0 }), (false, {}), (false, {}),
    (true, { call := .submitSync oneRegister 0 }), (false, {}), (false, { late := true }),
    (false, {})]

theorem no_callback_dangles_givesUp :
    ∃ os s', runAll (Threads.act Control.step) givesUp (Sharing.begin {}) = .ok (os, s') ∧
      s'.shared.returned = [(0, .fail .timeoutExpired)] ∧ s'.shared.dangling = [] := by
  have hrun : ∃ os s', runAll (Threads.act Control.step) givesUp (Sharing.begin {}) = .ok (os, s') ∧
      s'.shared.returned = [(0, .fail .timeoutExpired)] := ⟨_, _, rfl, rfl⟩
  obtain ⟨os, s', hrun, hreturned⟩ := hrun
  refine ⟨os, s', hrun, hreturned, no_callback_dangles {} givesUp ?_ hrun⟩
  refine .cons ?_ rfl (.cons ?_ rfl
    (.cons ?_ rfl (.cons ?_ rfl (.cons ?_ rfl (.cons ?_ rfl (.cons ?_ rfl trivial))))))
  rotate_right
  · rintro (_ | _) hne
    · exact absurd rfl hne
    · rintro call hk
      cases hk
      show 0 ∉ [1]
      decide
  all_goals
    rintro t' - call hk
    cases hk

/-- The answer to the first request. -/
def firstAnswer : PDU := .makeExtended { correlationId := 1 } []

/-- The second thread receives the answer to the request of the first one and takes the
request off the queue; the first one gives up and returns; then the second one invokes its
callback. -/
def overtaken : List (Bool × Surroundings) :=
  [(false, { call := .submitSync oneRegister 0 }), (false, {}), (false, {}),
    (true, { call := .submitSync oneRegister 0 }), (true, {}), (true, {}),
    (true, { received := .value firstAnswer.serialize }), (true, {}),
    (false, {}), (false, { late := true }), (false, {}), (true, {})]

theorem callback_dangles :
    ∃ os s', runAll (Threads.act Control.step) overtaken (Sharing.begin {}) = .ok (os, s') ∧
      s'.shared.returned = [(0, .fail .timeoutExpired)] ∧
      s'.shared.dangling = [⟨⟨0, true⟩, .value firstAnswer⟩] :=
  ⟨_, _, rfl, rfl, rfl⟩

end ModbusPp

import ModbusPp.Pipeline.Steps

/-! A thread that submits, a thread that polls, and a peer that answers. `submit` sends a
request before it is in the queue, so its answer can be polled in between, and `poll`
drops an answer it has no request for. The frames are followed under the requests they
were made of, from the peer to the polling thread's hand. -/

namespace ModbusPp

open Foundation

/-- The two threads, the pipeline they share, the frames the peer has not answered, the
answers under way, the request whose answer the polling thread has in hand, and the
answers it has looked up in the queue. -/
structure Racing where
  submitter : Control := .idle
  poller : Control := .idle
  shared : Sharing
  unanswered : List PendingRequest := []
  coming : List (PendingRequest × List UInt8) := []
  inHand : Option PendingRequest := none
  polled : List (PendingRequest × PDU) := []

/-- The next step of one of the parties: the submitting thread, with the call it makes if
it is idle and the transport's verdict if it sends; the polling thread; the peer, with the
frame by which it answers one of those it has. -/
inductive RacingTurn
  | submitter (request : PDU) (hasCallback : Bool) (timeout : Milliseconds)
      (now : Timestamp) (sent : VoidResult)
  | poller (now : Timestamp)
  | peer (k : ℕ) (frame : List UInt8)

namespace Racing

def start (config : PipelineConfig) : Racing where
  shared := { pipeline := .create config }

/-- What the step of the submitting thread hands to the peer. -/
def reaches (submitter : Control) (sent : VoidResult) : List PendingRequest :=
  match submitter with
  | .sending r _ => if sent.hasValue then [r] else []
  | _ => []

/-- What a receive brings in. -/
def arrival (s : Racing) : Result (List UInt8) :=
  match s.coming with
  | [] => .fail .timeoutExpired
  | (_, frame) :: _ => .value frame

/-- The peer answers once, under the id of the request; any other frame is not an answer. -/
def answer (k : ℕ) (frame : List UInt8) (s : Racing) : Racing :=
  match s.unanswered[k]?, PDU.deserialize (.ofList frame) with
  | some r, .ok (.value pdu) =>
    if Pipeline.correlationOf pdu = r.id then
      { s with unanswered := s.unanswered.eraseIdx k, coming := s.coming ++ [(r, frame)] }
    else s
  | _, _ => s

def step (turn : RacingTurn) (s : Racing) : Checked (Unit × Racing) :=
  match turn with
  | .submitter request hasCallback timeout now sent => do
    let (control, shared) ←
      Control.step { call := .submit request hasCallback timeout, now, sent } s.submitter s.shared
    return ((), { s with
      submitter := control, shared, unanswered := s.unanswered ++ reaches s.submitter sent })
  | .poller now => do
    let (control, shared) ← Control.step { now, received := s.arrival } s.poller s.shared
    let s' := { s with poller := control, shared }
    match s.poller with
    | .receiving _ =>
        return ((), { s' with coming := s.coming.tail, inHand := s.coming.head?.map Prod.fst })
    | .removing pdu _ =>
      return ((), { s' with
        polled := s.polled ++ (s.inHand.map fun r => (r, pdu)).toList, inHand := none })
    | _ => return ((), s')
  | .peer k frame => return ((), s.answer k frame)

/-! ### No polled response is lost -/

/-- The submission has returned an id. -/
def Accepted (s : Sharing) (r : PendingRequest) : Prop :=
  ∃ id, (r.callback.submission, .value id) ∈ s.submitted

/-- The response has gone to the request's callback, or goes there next. -/
def Handed (s : Racing) (r : PendingRequest) (pdu : PDU) : Prop :=
  (∀ i ∈ r.callback.invoke (.value pdu), i ∈ s.shared.invoked) ∨ s.poller = .dispatching r pdu none

/-- Every response that was polled, and whose submission was a success, was handed to the
callback of its request. -/
def NothingLost (s : Racing) : Prop :=
  ∀ r pdu, (r, pdu) ∈ s.polled → Accepted s.shared r → s.Handed r pdu

/-- The requests whose answer has not been looked up. -/
def outstanding (s : Racing) : List PendingRequest :=
  s.unanswered ++ s.coming.map Prod.fst ++ s.inHand.toList

/-- A submission takes an id under which no answer is outstanding; an answer is not looked
up while its request is still to be inserted; and no request expires. -/
def Timely (turn : RacingTurn) (s : Racing) : Prop :=
  match turn with
  | .submitter .. => s.submitter = .idle → ∀ r ∈ s.outstanding, r.id ≠ s.shared.pipeline.nextId
  | .poller now =>
    match s.poller with
    | .removing pdu _ => ∀ r sync, s.submitter = .inserting r sync →
        r.id ≠ Pipeline.correlationOf pdu
    | .sweeping _ => ∀ r ∈ s.shared.pipeline.queue.pending, ¬r.Overdue now
    | _ => True
  | .peer .. => True

/-! ### The ledger of outstanding answers -/

/-- The submissions below this number have returned. -/
def bound (submitter : Control) (s : Sharing) : ℕ :=
  match submitter with
  | .idle => s.submissions
  | _ => s.submissions - 1

/-- The submitting thread: between calls, before the send, or before the insertion, with
the last submission. -/
inductive Submits (outstanding : List PendingRequest) (s : Sharing) : Control → Prop
  | idle : Submits outstanding s .idle
  | sending {r : PendingRequest} (hfresh : ∀ r' ∈ outstanding, r'.id ≠ r.id)
    (hlast : r.callback.submission + 1 = s.submissions) : Submits outstanding s (.sending r false)
  | inserting {r : PendingRequest} (hsent : r ∈ outstanding)
    (hlast : r.callback.submission + 1 = s.submissions) : Submits outstanding s (.inserting r false)

/-- Every outstanding answer finds its request in the queue, unless that is still to be
inserted or was refused; and the queue holds nothing else. -/
structure Ledger (outstanding : List PendingRequest) (submitter : Control)
    (s : Sharing) : Prop where
  distinct : (outstanding.map PendingRequest.id).Nodup
  submits : Submits outstanding s submitter
  queued : ∀ r ∈ s.pipeline.queue.pending, r ∈ outstanding ∧
  r.callback.submission < bound submitter s
  placed : ∀ r ∈ outstanding, submitter = .inserting r false ∨
    r.callback.submission < bound submitter s ∧ (r ∈ s.pipeline.queue.pending ∨ ¬Accepted s r)
  submitted : ∀ x ∈ s.submitted, x.1 < bound submitter s

namespace Ledger

variable {outstanding outstanding' : List PendingRequest} {submitter : Control}
  {s s' : Sharing} {r : PendingRequest}

theorem perm (h : Ledger outstanding submitter s) (hperm : outstanding.Perm outstanding') :
    Ledger outstanding' submitter s where
  distinct := (hperm.map _).nodup_iff.mp h.distinct
  submits := by
    cases h.submits with
    | idle => exact .idle
    | sending hfresh hlast => exact .sending (fun r' hr' => hfresh r' (hperm.mem_iff.mpr hr')) hlast
    | inserting hsent hlast => exact .inserting (hperm.mem_iff.mp hsent) hlast
  queued r hr := ⟨hperm.mem_iff.mp (h.queued r hr).1, (h.queued r hr).2⟩
  placed r hr := h.placed r (hperm.mem_iff.mpr hr)
  submitted := h.submitted

/-- The steps of the polling thread that leave the queue alone. -/
theorem congr (h : Ledger outstanding submitter s)
    (hqueue : s'.pipeline.queue.pending = s.pipeline.queue.pending)
    (hsubmissions : s'.submissions = s.submissions) (hsubmitted : s'.submitted = s.submitted) :
    Ledger outstanding submitter s' := by
  have hbound : bound submitter s' = bound submitter s := by
    cases submitter <;> simp [bound, hsubmissions]
  have haccepted (r : PendingRequest) : Accepted s' r ↔ Accepted s r := by
    rw [Accepted, Accepted, hsubmitted]
  refine ⟨h.distinct, ?_, ?_, ?_, ?_⟩
  · cases h.submits with
    | idle => exact .idle
    | sending hfresh hlast => exact .sending hfresh (hlast.trans hsubmissions.symm)
    | inserting hsent hlast => exact .inserting hsent (hlast.trans hsubmissions.symm)
  · rw [hqueue, hbound]
    exact h.queued
  · rw [hqueue, hbound]
    exact fun r hr => (h.placed r hr).imp_right (And.imp_right (Or.imp_right (mt (haccepted r).mp)))
  · rw [hsubmitted, hbound]
    exact h.submitted

theorem accepted_submits {result : Result CorrelationID} {r' : PendingRequest}
    (h : Accepted (s.submits r result) r') :
    Accepted s r' ∨ r'.callback.submission = r.callback.submission ∧ ∃ id, result = .value id := by
  obtain ⟨id, hmem⟩ := h
  rcases List.mem_append.mp hmem with hbefore | hnow
  · exact .inl ⟨id, hbefore⟩
  · obtain ⟨hnumber, hresult⟩ := Prod.mk.inj (List.mem_singleton.mp hnow)
    exact .inr ⟨hnumber, id, hresult.symm⟩

theorem begin (h : Ledger outstanding .idle s) (hfresh : ∀ r' ∈ outstanding, r'.id ≠ r.id)
    (hnumber : r.callback.submission = s.submissions) :
    Ledger outstanding (.sending r false) s.start where
  distinct := h.distinct
  submits := .sending hfresh (by rw [hnumber]; rfl)
  queued := h.queued
  placed r' hr' := .inr ((h.placed r' hr').resolve_left fun hne => by cases hne)
  submitted := h.submitted

theorem send (h : Ledger outstanding (.sending r false) s) :
    Ledger (r :: outstanding) (.inserting r false) s := by
  cases h.submits with
  | sending hfresh hlast =>
    refine ⟨?_, .inserting List.mem_cons_self hlast, ?_, ?_, h.submitted⟩
    · refine List.nodup_cons.mpr ⟨fun hmem => ?_, h.distinct⟩
      obtain ⟨r', hr', hid⟩ := List.mem_map.mp hmem
      exact hfresh r' hr' hid
    · exact fun r' hr' => ⟨List.mem_cons_of_mem _ (h.queued r' hr').1, (h.queued r' hr').2⟩
    · intro r' hr'
      rcases List.mem_cons.mp hr' with rfl | hr'
      · exact .inl rfl
      · exact .inr ((h.placed r' hr').resolve_left fun hne => by cases hne)

theorem last_eq_bound (hk : submitter = .sending r false ∨ submitter = .inserting r false)
    (h : Ledger outstanding submitter s) :
    r.callback.submission = bound submitter s ∧ bound submitter s < s.submissions := by
  rcases hk with rfl | rfl
  · cases h.submits with
    | sending hfresh hlast =>
      simp only [bound]
      omega
  · cases h.submits with
    | inserting hsent hlast =>
      simp only [bound]
      omega

theorem accepted_before (hk : submitter = .sending r false ∨ submitter = .inserting r false)
    (h : Ledger outstanding submitter s) {result : Result CorrelationID} {r' : PendingRequest}
    (hbefore : r'.callback.submission < bound submitter s)
    (hyes : Accepted (s'.submits r result) r') :
    Accepted s' r' := by
  obtain ⟨hlast, -⟩ := last_eq_bound hk h
  rcases accepted_submits hyes with hyes | ⟨hsame, -⟩
  · exact hyes
  · rw [hsame, hlast] at hbefore
    exact absurd hbefore (lt_irrefl _)

/-- The submission fails, in the send or at a full queue. -/
theorem fail (hk : submitter = .sending r false ∨ submitter = .inserting r false)
    (h : Ledger outstanding submitter s) (ec : StdErrorCode) :
    Ledger outstanding .idle (s.fails r false ec) := by
  obtain ⟨hlast, hlt⟩ := last_eq_bound hk h
  have haccepted {r' : PendingRequest} (h : Accepted (s.fails r false ec) r') : Accepted s r' := by
    rcases accepted_submits h with h | ⟨-, id, hresult⟩
    · exact h
    · cases hresult
  refine ⟨h.distinct, .idle, ?_, ?_, ?_⟩
  · exact fun r' hr' => ⟨(h.queued r' hr').1, (h.queued r' hr').2.trans hlt⟩
  · intro r' hr'
    right
    rcases h.placed r' hr' with hinserting | ⟨hnumber, hplace⟩
    · have hsame : r' = r := by
        rcases hk with rfl | rfl
        · cases hinserting
        · cases hinserting
          rfl
      subst hsame
      refine ⟨hlast ▸ hlt, .inr fun hyes => ?_⟩
      obtain ⟨id, hmem⟩ := haccepted hyes
      exact absurd (h.submitted _ hmem) (hlast ▸ lt_irrefl _)
    · exact ⟨hnumber.trans hlt, hplace.imp_right (mt haccepted)⟩
  · intro x hx
    rcases List.mem_append.mp hx with hbefore | hnow
    · exact (h.submitted x hbefore).trans hlt
    · rw [List.mem_singleton.mp hnow]
      exact hlast ▸ hlt

/-- The submission succeeds. -/
theorem insert (h : Ledger outstanding (.inserting r false) s) :
    Ledger outstanding .idle
      ((s.withQueue (s.pipeline.queue.emplace r)).submits r (.value r.id)) := by
  obtain ⟨hlast, hlt⟩ := last_eq_bound (.inr rfl) h
  have hsent : r ∈ outstanding := by
    cases h.submits with
    | inserting hsent hlast => exact hsent
  have hnew : r.id ∉ s.pipeline.queue.ids := by
    intro hmem
    obtain ⟨r', hr', hid⟩ := RequestQueue.mem_ids.mp hmem
    obtain ⟨hout, hnumber⟩ := h.queued r' hr'
    rw [List.inj_on_of_nodup_map h.distinct hout hsent hid, hlast] at hnumber
    exact lt_irrefl _ hnumber
  have hpending : (s.pipeline.queue.emplace r).pending = s.pipeline.queue.pending ++ [r] := by
    rw [RequestQueue.emplace, dif_neg hnew]
  refine ⟨h.distinct, .idle, ?_, ?_, ?_⟩
  · intro r' hr'
    change r' ∈ (s.pipeline.queue.emplace r).pending at hr'
    rw [hpending] at hr'
    rcases List.mem_append.mp hr' with hr' | hr'
    · exact ⟨(h.queued r' hr').1, (h.queued r' hr').2.trans hlt⟩
    · rw [List.mem_singleton.mp hr']
      exact ⟨hsent, hlast ▸ hlt⟩
  · intro r' hr'
    right
    change _ ∧ (r' ∈ (s.pipeline.queue.emplace r).pending ∨ _)
    rw [hpending]
    rcases h.placed r' hr' with hinserting | ⟨hnumber, hplace⟩
    · cases hinserting
      exact ⟨hlast ▸ hlt, .inl (List.mem_append_right _ List.mem_cons_self)⟩
    · refine ⟨hnumber.trans hlt, hplace.imp (List.mem_append_left _) fun hno hyes => ?_⟩
      rcases accepted_submits hyes with hyes | ⟨hsame, -⟩
      · exact hno hyes
      · rw [hsame, hlast] at hnumber
        exact lt_irrefl _ hnumber
  · intro x hx
    rcases List.mem_append.mp hx with hbefore | hnow
    · exact (h.submitted x hbefore).trans hlt
    · rw [List.mem_singleton.mp hnow]
      exact hlast ▸ hlt

theorem lookUp (h : Ledger (r :: outstanding) submitter s)
    (htimely : submitter ≠ .inserting r false) :
    r.callback.submission < bound submitter s ∧
    ((s.pipeline.queue.find r.id = some r ∧
        Ledger outstanding submitter (s.withQueue (s.pipeline.queue.erase r.id))) ∨
      (s.pipeline.queue.find r.id = none ∧ ¬Accepted s r ∧ Ledger outstanding submitter s)) := by
  obtain ⟨hnumber, hplace⟩ := (h.placed r List.mem_cons_self).resolve_left htimely
  have hids := List.nodup_cons.mp h.distinct
  have hsubmits : Submits outstanding s submitter := by
    cases h.submits with
    | idle => exact .idle
    | sending hfresh hlast =>
        exact .sending (fun r' hr' => hfresh r' (List.mem_cons_of_mem _ hr')) hlast
    | inserting hsent hlast =>
      refine .inserting ((List.mem_cons.mp hsent).resolve_left ?_) hlast
      rintro rfl
      exact htimely rfl
  have hother {r' : PendingRequest} (hr' : r' ∈ outstanding) : r'.id ≠ r.id :=
    fun hid => hids.1 (hid ▸ List.mem_map_of_mem hr')
  refine ⟨hnumber, ?_⟩
  by_cases hqueued : r ∈ s.pipeline.queue.pending
  · refine .inl ⟨RequestQueue.find_eq_some.mpr ⟨hqueued, rfl⟩, hids.2, ?_, ?_, ?_, h.submitted⟩
    · cases hsubmits with
      | idle => exact .idle
      | sending hfresh hlast => exact .sending hfresh hlast
      | inserting hsent hlast => exact .inserting hsent hlast
    · intro r' hr'
      obtain ⟨hr', hne⟩ := RequestQueue.mem_erase.mp hr'
      obtain ⟨hout, hlt⟩ := h.queued r' hr'
      refine ⟨(List.mem_cons.mp hout).resolve_left ?_, hlt⟩
      rintro rfl
      exact hne rfl
    · intro r' hr'
      refine (h.placed r' (List.mem_cons_of_mem _ hr')).imp_right
        (And.imp_right (Or.imp_left fun hmem => ?_))
      exact RequestQueue.mem_erase.mpr ⟨hmem, hother hr'⟩
  · refine .inr ⟨RequestQueue.find_eq_none.mpr fun hmem => ?_, hplace.resolve_left hqueued,
      hids.2, hsubmits, ?_, ?_,
      h.submitted⟩
    · obtain ⟨r', hr', hid⟩ := RequestQueue.mem_ids.mp hmem
      have hout := (h.queued r' hr').1
      rw [List.inj_on_of_nodup_map h.distinct hout List.mem_cons_self hid] at hr'
      exact hqueued hr'
    · intro r' hr'
      obtain ⟨hout, hlt⟩ := h.queued r' hr'
      refine ⟨(List.mem_cons.mp hout).resolve_left ?_, hlt⟩
      rintro rfl
      exact hqueued hr'
    · exact fun r' hr' => h.placed r' (List.mem_cons_of_mem _ hr')

end Ledger

/-! ### The steps -/

/-- The polling thread, and the request whose answer it has in hand. -/
inductive Polls : Control → Option PendingRequest → Prop
  | idle : Polls .idle none
  | receiving : Polls (.receiving none) none
  | removing {r : PendingRequest} {pdu : PDU} (hid : Pipeline.correlationOf pdu = r.id) :
    Polls (.removing pdu none) (some r)
  | dispatching {r : PendingRequest} {pdu : PDU} : Polls (.dispatching r pdu none) none
  | sweeping : Polls (.sweeping none) none
  | expiring : Polls (.expiring [] none) none

structure Inv (s : Racing) : Prop where
  ledger : Ledger s.outstanding s.submitter s.shared
  polls : Polls s.poller s.inHand
  coming : ∀ x ∈ s.coming, ∃ pdu, PDU.deserialize (.ofList x.2) = .ok (.value pdu) ∧
    Pipeline.correlationOf pdu = x.1.id
  settled : ∀ x ∈ s.polled, x.1.callback.submission < bound s.submitter s.shared
  kept : s.NothingLost

theorem inv_start (config : PipelineConfig) : Inv (start config) where
  ledger := ⟨List.nodup_nil, .idle, List.forall_mem_nil _, List.forall_mem_nil _,
    List.forall_mem_nil _⟩
  polls := .idle
  coming := List.forall_mem_nil _
  settled := List.forall_mem_nil _
  kept _ _ h := by cases h

variable {s s' : Racing} {now : Timestamp}

/-- A step of the submitting thread, with what it does to the ledger. -/
theorem Inv.submitted (h : Inv s) {control : Control} {shared : Sharing}
    {frames : List PendingRequest} (hledger : Ledger (frames ++ s.outstanding) control shared)
    (hbound : bound s.submitter s.shared ≤ bound control shared)
    (hinvoked : shared.invoked = s.shared.invoked)
    (haccepted : ∀ r, r.callback.submission < bound s.submitter s.shared →
      Accepted shared r → Accepted s.shared r) :
    Inv { s with submitter := control, shared, unanswered := s.unanswered ++ frames } where
  ledger := by
    refine hledger.perm ?_
    simp only [outstanding, List.append_assoc]
    exact (List.perm_append_comm_assoc _ _ _)
  polls := h.polls
  coming := h.coming
  settled x hx := (h.settled x hx).trans_le hbound
  kept r pdu hmem hyes := by
    refine (h.kept r pdu hmem (haccepted r (h.settled _ hmem) hyes)).imp_left ?_
    rw [hinvoked]
    exact fun h => h

theorem submitter_inv (h : Inv s) {request : PDU} {hasCallback : Bool}
    {timeout : Milliseconds} {sent : VoidResult}
    (htimely : Timely (.submitter request hasCallback timeout now sent) s)
    (hstep : step (.submitter request hasCallback timeout now sent) s = .ok ((), s')) : Inv s' := by
  obtain ⟨⟨control, shared⟩, hcontrol, hstep⟩ := bind_eq_ok.mp hstep
  cases hstep
  have hledger := h.ledger
  have hsubmits := hledger.submits
  cases hsubmitter : s.submitter with
  | idle =>
    rw [hsubmitter] at hcontrol hledger
    cases hcontrol
    refine h.submitted (hledger.begin (htimely hsubmitter) rfl) ?_ rfl fun r _ hyes => hyes
    rw [hsubmitter]
    exact le_rfl
  | sending r sync =>
    rw [hsubmitter] at hcontrol hledger hsubmits
    obtain rfl : sync = false := by cases hsubmits; rfl
    simp only [Control.step] at hcontrol
    split_ifs at hcontrol with hsent
    · cases hcontrol
      have hframes : reaches (.sending r false) sent = [r] := if_pos hsent
      rw [hframes]
      refine h.submitted hledger.send ?_ rfl fun r _ hyes => hyes
      rw [hsubmitter]
      exact le_rfl
    · cases hcontrol
      have hframes : reaches (.sending r false) sent = [] := if_neg hsent
      rw [hframes]
      refine h.submitted (Ledger.fail (.inl rfl) hledger _) ?_ rfl fun r' hbefore hyes => ?_
      · rw [hsubmitter]
        exact (Ledger.last_eq_bound (.inl rfl) hledger).2.le
      · rw [hsubmitter] at hbefore
        exact Ledger.accepted_before (.inl rfl) hledger hbefore hyes
  | inserting r sync =>
    rw [hsubmitter] at hcontrol hledger hsubmits
    obtain rfl : sync = false := by cases hsubmits; rfl
    have hinserted : Control.stepInserting r false s.shared = (control, shared) :=
      Except.ok.inj hcontrol
    have hlt := (Ledger.last_eq_bound (.inr rfl) hledger).2
    by_cases hfull : s.shared.pipeline.queue.Full
    · rw [Control.stepInserting_full hfull] at hinserted
      cases hinserted
      refine h.submitted (Ledger.fail (.inr rfl) hledger _) ?_ rfl fun r' hbefore hyes => ?_
      · rw [hsubmitter]
        exact hlt.le
      · rw [hsubmitter] at hbefore
        exact Ledger.accepted_before (.inr rfl) hledger hbefore hyes
    · rw [Control.stepInserting_room hfull] at hinserted
      cases hinserted
      refine h.submitted hledger.insert ?_ rfl fun r' hbefore hyes => ?_
      · rw [hsubmitter]
        exact hlt.le
      · rw [hsubmitter] at hbefore
        exact Ledger.accepted_before (.inr rfl) hledger hbefore hyes
  | _ =>
    rw [hsubmitter] at hsubmits
    cases hsubmits

/-- A step of the polling thread, with what it does to the answers. -/
theorem Inv.polled (h : Inv s) {t : Racing} (hsubmitter : t.submitter = s.submitter)
    (hledger : Ledger t.outstanding t.submitter t.shared) (hpolls : Polls t.poller t.inHand)
    (hcoming : t.coming ⊆ s.coming)
    (hsubmissions : t.shared.submissions = s.shared.submissions)
    (hsubmitted : t.shared.submitted = s.shared.submitted)
    (hinvoked : s.shared.invoked ⊆ t.shared.invoked)
    (hdispatched : ∀ r pdu, s.poller = .dispatching r pdu none →
      ∀ i ∈ r.callback.invoke (.value pdu), i ∈ t.shared.invoked)
    (hpolled : ∀ x ∈ t.polled, x ∈ s.polled ∨ x.1.callback.submission < bound s.submitter s.shared ∧
      (Accepted s.shared x.1 → t.Handed x.1 x.2)) : Inv t := by
  have hbound : bound t.submitter t.shared = bound s.submitter s.shared := by
    rw [hsubmitter]
    cases s.submitter <;> simp [bound, hsubmissions]
  refine ⟨hledger, hpolls, fun x hx => h.coming x (hcoming hx),
    fun x hx => ?_, fun r pdu hmem hyes => ?_⟩
  · rw [hbound]
    rcases hpolled x hx with hbefore | ⟨hnumber, -⟩
    · exact h.settled x hbefore
    · exact hnumber
  · rw [Accepted, hsubmitted] at hyes
    rcases hpolled _ hmem with hbefore | ⟨-, hnow⟩
    · rcases h.kept r pdu hbefore hyes with hdone | hnext
      · exact .inl fun i hi => hinvoked (hdone i hi)
      · exact .inl (hdispatched r pdu hnext)
    · exact hnow hyes

theorem Inv.walks (h : Inv s) {control : Control}
    (hnot : ∀ r pdu, s.poller ≠ .dispatching r pdu none) (hpolls : Polls control s.inHand) :
    Inv { s with poller := control } :=
  h.polled rfl h.ledger hpolls (List.Subset.refl _) rfl rfl (List.Subset.refl _)
    (fun r pdu hnext => absurd hnext (hnot r pdu)) fun _ hx => .inl hx

/-- The next answer is received. -/
theorem Inv.receives (h : Inv s) {r : PendingRequest} {frame : List UInt8}
    {rest : List (PendingRequest × List UInt8)} {pdu : PDU}
    (hpoller : s.poller = .receiving none) (hhand : s.inHand = none)
    (hcoming : s.coming = (r, frame) :: rest)
    (hid : Pipeline.correlationOf pdu = r.id) :
    Inv { s with poller := .removing pdu none, coming := rest, inHand := some r } := by
  refine h.polled rfl (h.ledger.perm ?_) (.removing hid)
    (hcoming ▸ List.subset_cons_self _ _) rfl rfl
    (List.Subset.refl _) (fun r pdu hnext => ?_) fun _ hx => .inl hx
  · simp only [outstanding, hcoming, hhand, List.map_cons, List.append_assoc, Option.toList_none,
      List.append_nil, Option.toList_some]
    exact (List.perm_append_singleton _ _).symm.append_left _
  · rw [hpoller] at hnext
    cases hnext

theorem Inv.looksUp (h : Inv s) {r : PendingRequest} {pdu : PDU}
    {control : Control} {shared : Sharing} (hpoller : s.poller = .removing pdu none)
    (hhand : s.inHand = some r) (hid : Pipeline.correlationOf pdu = r.id)
    (htimely : s.submitter ≠ .inserting r false)
    (hremoved : Control.stepRemoving pdu none s.shared = (control, shared)) :
    Inv { s with poller := control, shared, polled := s.polled ++ [(r, pdu)], inHand := none } := by
  have hledger : Ledger (r :: (s.unanswered ++ s.coming.map Prod.fst)) s.submitter s.shared := by
    have hledger := h.ledger
    rw [outstanding, hhand] at hledger
    exact hledger.perm (List.perm_append_singleton _ _)
  have hnot (r' : PendingRequest) (pdu' : PDU) : s.poller ≠ .dispatching r' pdu' none := by
    rw [hpoller]
    intro hnext
    cases hnext
  obtain ⟨hnumber, hcases⟩ := hledger.lookUp htimely
  rw [Control.stepRemoving, RequestQueue.remove, hid] at hremoved
  rcases hcases with ⟨hfound, hledger'⟩ | ⟨hmissing, hrefused, hledger'⟩
  · rw [hfound] at hremoved
    cases hremoved
    refine h.polled rfl (by simpa [outstanding] using hledger') .dispatching
      (List.Subset.refl _) rfl rfl
      (List.Subset.refl _) (fun r pdu hnext => absurd hnext (hnot r pdu)) fun x hx => ?_
    refine (List.mem_append.mp hx).imp_right fun hnow => ?_
    obtain rfl := List.mem_singleton.mp hnow
    exact ⟨hnumber, fun _ => .inr rfl⟩
  · rw [hmissing] at hremoved
    cases hremoved
    refine h.polled rfl (by simpa [outstanding] using hledger') .idle (List.Subset.refl _) rfl rfl
      (List.Subset.refl _) (fun r pdu hnext => absurd hnext (hnot r pdu)) fun x hx => ?_
    refine (List.mem_append.mp hx).imp_right fun hnow => ?_
    obtain rfl := List.mem_singleton.mp hnow
    exact ⟨hnumber, fun hyes => absurd hyes hrefused⟩

theorem sweep_none {queue queue' : RequestQueue} {expired : List PendingRequest}
    (hnone : ∀ r ∈ queue.pending, ¬r.Overdue now)
    (hsweep : queue.removeExpired now = .ok (expired, queue')) :
    expired = [] ∧ queue'.pending = queue.pending := by
  obtain ⟨hexpired, hkept, -⟩ := RequestQueue.removeExpired_eq hsweep
  rw [hexpired, hkept]
  exact ⟨List.filter_eq_nil_iff.mpr fun r hr => by simpa using hnone r hr,
    List.filter_eq_self.mpr fun r hr => by simpa using hnone r hr⟩

theorem poller_inv (h : Inv s) (htimely : Timely (.poller now) s)
    (hstep : step (.poller now) s = .ok ((), s')) :
    Inv s' := by
  obtain ⟨⟨control, shared⟩, hcontrol, hstep⟩ := bind_eq_ok.mp hstep
  obtain ⟨submitter, poller, shared₀, unanswered, coming, inHand, polled⟩ := s
  have hpolls : Polls poller inHand := h.polls
  cases hpolls with
  | idle =>
    cases hcontrol
    cases hstep
    exact h.walks (fun _ _ hnext => by cases hnext) .receiving
  | receiving =>
    cases coming with
    | nil =>
      cases hcontrol
      cases hstep
      exact h.walks (fun _ _ hnext => by cases hnext) .idle
    | cons next rest =>
      obtain ⟨r, frame⟩ := next
      obtain ⟨pdu, hdecode, hid⟩ := h.coming (r, frame) List.mem_cons_self
      have hreceived : Control.stepReceiving (.value frame) none = .ok (.removing pdu none) := by
        simp only [Control.stepReceiving, hdecode, ok_bind, pure_eq_ok]
      simp only [arrival, Control.step, hreceived, ok_bind, pure_eq_ok, Except.ok.injEq,
        Prod.mk.injEq] at hcontrol
      obtain ⟨rfl, rfl⟩ := hcontrol
      cases hstep
      exact h.receives rfl rfl rfl hid
  | @removing r pdu hid =>
    cases hstep
    exact h.looksUp rfl rfl hid (fun hinserting => htimely r false hinserting hid.symm)
      (Except.ok.inj hcontrol)
  | @dispatching r pdu =>
    obtain ⟨latencyUs, -, hcontrol⟩ := bind_eq_ok.mp hcontrol
    cases hcontrol
    cases hstep
    refine h.polled rfl (h.ledger.congr rfl rfl rfl) .sweeping (List.Subset.refl _) rfl rfl
      (List.subset_append_left _ _) (fun r' pdu' hsame i hi => ?_) fun x hx => .inl hx
    cases hsame
    exact List.mem_append_right _ hi
  | sweeping =>
    obtain ⟨⟨expired, queue⟩, hsweep, hcontrol⟩ := bind_eq_ok.mp hcontrol
    cases hcontrol
    cases hstep
    obtain ⟨rfl, hall⟩ := sweep_none htimely hsweep
    exact h.polled rfl (h.ledger.congr hall rfl rfl) .expiring (List.Subset.refl _)
      rfl rfl (List.Subset.refl _)
      (fun r pdu hnext => by cases hnext) fun x hx => .inl hx
  | expiring =>
    cases hcontrol
    cases hstep
    exact h.walks (fun _ _ hnext => by cases hnext) .idle

theorem answer_inv (h : Inv s) (k : ℕ) (frame : List UInt8) : Inv (s.answer k frame) := by
  unfold answer
  split
  · rename_i r pdu hk hdecode
    split_ifs with hid
    · obtain ⟨hlt, rfl⟩ := List.getElem?_eq_some_iff.mp hk
      refine ⟨h.ledger.perm ?_, h.polls, fun x hx => ?_, h.settled, h.kept⟩
      · have hunanswered := (List.getElem_cons_eraseIdx_perm hlt).symm
        simp only [outstanding, List.map_append, List.map_cons, List.map_nil]
        refine List.Perm.append_right _ ((hunanswered.append_right _).trans ?_)
        rw [← List.append_assoc]
        exact (List.perm_append_singleton _ _).symm
      · rcases List.mem_append.mp hx with hx | hx
        · exact h.coming x hx
        · rw [List.mem_singleton.mp hx]
          exact ⟨pdu, hdecode, hid⟩
    · exact h
  · exact h

theorem step_inv {turn : RacingTurn} (h : Inv s) (htimely : Timely turn s)
    (hstep : step turn s = .ok ((), s')) :
    Inv s' := by
  cases turn with
  | submitter request hasCallback timeout now sent => exact submitter_inv h htimely hstep
  | poller now => exact poller_inv h htimely hstep
  | peer k frame =>
    cases hstep
    exact answer_inv h k frame

/-- However the steps of the two threads and of the peer alternate: as long as they are
timely, every answer that is polled goes to the callback of its request. -/
theorem polled_handed (config : PipelineConfig) (turns : List RacingTurn) {os : List Unit}
    (htimely : Guarded step Timely turns (start config))
    (hrun : runAll step turns (start config) = .ok (os, s')) :
    s'.NothingLost :=
  (runAll_keeps_guarded Inv (fun _ => True)
    (fun _ _ _ _ hinv htimely hstep => ⟨step_inv hinv htimely hstep, trivial⟩)
    turns (inv_start config) htimely hrun).1.kept

/-- The next step of the submitting thread, with a read of one register. -/
def submitNext : RacingTurn :=
  .submitter (.makeStandard .readHoldingRegisters [0, 0, 0, 1]) true 0 ⟨0⟩ .ok

/-- The peer's answer to the first request. -/
def answerFirst : RacingTurn := .peer 0 (PDU.makeExtended { correlationId := 1 } []).serialize

/-- A submission that returns before its answer is looked up. -/
theorem polled_handed_in_time :
    ∃ os s', runAll step [submitNext, submitNext, answerFirst, .poller ⟨0⟩, .poller ⟨0⟩, submitNext,
        .poller ⟨0⟩, .poller ⟨0⟩]
        (start {}) = .ok (os, s') ∧ s'.polled.length = 1 ∧ s'.NothingLost := by
  obtain ⟨os, s', hrun, hpolled⟩ :
      ∃ os s', runAll step
        [submitNext, submitNext, answerFirst, .poller ⟨0⟩, .poller ⟨0⟩, submitNext,
          .poller ⟨0⟩, .poller ⟨0⟩] (start {}) = .ok (os, s') ∧ s'.polled.length = 1 :=
    ⟨_, _, rfl, rfl⟩
  refine ⟨os, s', hrun, hpolled, polled_handed {} _ ?_ hrun⟩
  refine .cons (fun _ => List.forall_mem_nil _) rfl
    (.cons ?_ rfl (.cons trivial rfl (.cons trivial rfl
    (.cons trivial rfl (.cons ?_ rfl (.cons ?_ rfl (.cons trivial rfl trivial)))))))
  · exact fun hidle => by cases hidle
  · exact fun hidle => by cases hidle
  · exact fun r sync hinserting => by cases hinserting

/-- The answer is looked up between the send and the insertion: the submission returns an
id, and nothing is left that could come for it. -/
theorem polled_too_early :
    ∃ os s', runAll step
      [submitNext, submitNext, answerFirst, .poller ⟨0⟩, .poller ⟨0⟩, .poller ⟨0⟩, submitNext]
        (start {}) = .ok (os, s') ∧ s'.shared.submitted = [(0, .value 1)] ∧
        s'.outstanding = [] ∧ ¬s'.NothingLost := by
  refine ⟨_, _, rfl, rfl, rfl, fun hkept => ?_⟩
  rcases hkept _ _ List.mem_cons_self ⟨1, List.mem_cons_self⟩ with hinvoked | hnext
  · cases hinvoked _ List.mem_cons_self
  · cases hnext

end Racing

end ModbusPp

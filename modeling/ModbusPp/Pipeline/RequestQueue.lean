import ModbusPp.Core.Pdu

/-! The requests in flight (`request_queue.hpp`): a map from correlation ids to
pending requests. The list stands for the unspecified order of the hash map, and
that no two of its entries share an id is part of it. -/

namespace ModbusPp

open Foundation

abbrev CorrelationID := UInt16

/-- `std::chrono::milliseconds`. -/
abbrev Milliseconds := Int64

/-- A signed 64-bit result. An overflow is undefined in the source, and a fault here. -/
def signed (x : ℤ) : Checked Int64 :=
  if -2 ^ 63 ≤ x ∧ x < 2 ^ 63 then .ok (Int64.ofInt x) else .error .outOfRange

theorem toInt_of_signed {x : ℤ} {y : Int64} (h : signed x = .ok y) : y.toInt = x := by
  unfold signed at h
  split_ifs at h with hrange
  cases h
  exact Int64.toInt_ofInt_of_le hrange.1 hrange.2

/-- A `std::function<void(Result<PDU>)>`: the submission it was given to, and
whether there is a function in it. -/
structure Callback where
  submission : ℕ
  isSet : Bool
  deriving DecidableEq

structure PendingRequest where
  id : CorrelationID
  request : PDU
  sentAt : Timestamp
  timeout : Milliseconds
  callback : Callback
  deriving DecidableEq

namespace PendingRequest

/-- More than the timeout has passed since the request was sent. -/
def Overdue (now : Timestamp) (r : PendingRequest) : Prop :=
  r.timeout.toInt * 1000 < now.usSinceEpoch.toInt - r.sentAt.usSinceEpoch.toInt

instance (now : Timestamp) (r : PendingRequest) : Decidable (r.Overdue now) :=
  inferInstanceAs (Decidable (_ < _))

/-- The test of `remove_expired`. -/
def isExpired (now : Timestamp) (r : PendingRequest) : Checked Bool := do
  let elapsedUs ← signed (now.usSinceEpoch.toInt - r.sentAt.usSinceEpoch.toInt)
  let timeoutUs ← signed (r.timeout.toInt * 1000)
  return decide (elapsedUs > timeoutUs)

theorem isExpired_eq {now : Timestamp} {r : PendingRequest} {b : Bool}
    (h : r.isExpired now = .ok b) :
    b = decide (r.Overdue now) := by
  obtain ⟨elapsedUs, helapsed, h⟩ := bind_eq_ok.mp h
  obtain ⟨timeoutUs, htimeout, h⟩ := bind_eq_ok.mp h
  cases h
  apply decide_eq_decide.mpr
  rw [gt_iff_lt, Int64.lt_iff_toInt_lt, toInt_of_signed helapsed, toInt_of_signed htimeout, Overdue]

end PendingRequest

structure RequestQueue where
  pending : List PendingRequest := []
  maxSize : ℕ := 0
  distinct : (pending.map PendingRequest.id).Nodup := by exact List.nodup_nil

namespace RequestQueue

variable {q : RequestQueue} {id : CorrelationID} {now : Timestamp}

def ids (q : RequestQueue) : List CorrelationID := q.pending.map PendingRequest.id

def size (q : RequestQueue) : ℕ := q.pending.length

theorem mem_ids : id ∈ q.ids ↔ ∃ r ∈ q.pending, r.id = id := List.mem_map

/-- An id has one request. -/
theorem eq_of_id_eq {r r' : PendingRequest} (hr : r ∈ q.pending)
    (hr' : r' ∈ q.pending) (hid : r.id = r'.id) : r = r' :=
  List.inj_on_of_nodup_map q.distinct hr hr' hid

/-- `emplace`: an id that is taken keeps its request. -/
def emplace (req : PendingRequest) (q : RequestQueue) : RequestQueue :=
  if h : req.id ∈ q.ids then q
  else { q with
    pending := q.pending ++ [req]
    distinct := by simpa [List.nodup_append, q.distinct, ids] using h }

/-- There is a limit, and it is reached. -/
def Full (q : RequestQueue) : Prop := 0 < q.maxSize ∧ q.maxSize ≤ q.size

instance (q : RequestQueue) : Decidable q.Full := inferInstanceAs (Decidable (_ ∧ _))

def insert (req : PendingRequest) (q : RequestQueue) : Bool × RequestQueue :=
  if q.Full then (false, q) else (true, q.emplace req)

/-- The map without an id. -/
def erase (id : CorrelationID) (q : RequestQueue) : RequestQueue where
  pending := q.pending.filter (·.id ≠ id)
  maxSize := q.maxSize
  distinct := q.distinct.sublist (List.filter_sublist.map _)

def find (id : CorrelationID) (q : RequestQueue) : Option PendingRequest :=
  q.pending.find? (·.id = id)

def remove (id : CorrelationID) (q : RequestQueue) : Option PendingRequest × RequestQueue :=
  match q.find id with
  | none => (none, q)
  | some req => (some req, q.erase id)

def cancel (id : CorrelationID) (q : RequestQueue) : Bool × RequestQueue :=
  (decide (id ∈ q.ids), q.erase id)

/-- The loop of `remove_expired`: the expired requests, and the others. -/
def expireLoop (now : Timestamp) :
    List PendingRequest → Checked (List PendingRequest × List PendingRequest)
  | [] => return ([], [])
  | r :: rs => do
    let isExpired ← r.isExpired now
    let (expired, kept) ← expireLoop now rs
    return if isExpired then (r :: expired, kept) else (expired, r :: kept)

theorem expireLoop_eq {rs expired kept : List PendingRequest}
    (h : expireLoop now rs = .ok (expired, kept)) :
    expired = rs.filter (·.Overdue now) ∧ kept = rs.filter (¬·.Overdue now) := by
  induction rs generalizing expired kept with
  | nil =>
    cases h
    exact ⟨rfl, rfl⟩
  | cons r rs ih =>
    obtain ⟨isExpired, htest, h⟩ := bind_eq_ok.mp h
    obtain ⟨⟨expired', kept'⟩, hloop, h⟩ := bind_eq_ok.mp h
    obtain ⟨rfl, rfl⟩ := ih hloop
    obtain rfl := PendingRequest.isExpired_eq htest
    by_cases hover : r.Overdue now
    · simp only [hover, decide_true, if_true, pure_eq_ok, Except.ok.injEq, Prod.mk.injEq] at h
      simp [hover, ← h.1, ← h.2]
    · simp only [hover, decide_false, Bool.false_eq_true, if_false, pure_eq_ok, Except.ok.injEq,
        Prod.mk.injEq] at h
      simp [hover, ← h.1, ← h.2]

def removeExpired (now : Timestamp) (q : RequestQueue) :
    Checked (List PendingRequest × RequestQueue) :=
  match h : expireLoop now q.pending with
  | .error fault => .error fault
  | .ok (expired, kept) => .ok (expired, { q with
      pending := kept
      distinct := by
        rw [(expireLoop_eq h).2]
        exact q.distinct.sublist (List.filter_sublist.map _) })

theorem pending_nodup (q : RequestQueue) : q.pending.Nodup := List.Nodup.of_map _ q.distinct

/-- What an insertion can do: refuse, be swallowed by an id that is taken, or add. -/
theorem insert_cases (req : PendingRequest) (q : RequestQueue) :
    (q.Full ∧ q.insert req = (false, q)) ∨
    (¬q.Full ∧ req.id ∈ q.ids ∧ q.insert req = (true, q)) ∨
    (¬q.Full ∧ req.id ∉ q.ids ∧ (q.insert req).1 = true ∧ (q.insert req).2.maxSize = q.maxSize ∧
      (q.insert req).2.pending = q.pending ++ [req]) := by
  by_cases hfull : q.Full
  · exact .inl ⟨hfull, if_pos hfull⟩
  · by_cases htaken : req.id ∈ q.ids
    · exact .inr (.inl ⟨hfull, htaken, by rw [insert, if_neg hfull, emplace, dif_pos htaken]⟩)
    · exact .inr (.inr ⟨hfull, htaken, by simp [insert, hfull, emplace, htaken]⟩)

theorem find_eq_some {r : PendingRequest} : q.find id = some r ↔ r ∈ q.pending ∧ r.id = id := by
  unfold find
  constructor
  · intro h
    exact ⟨List.mem_of_find?_eq_some h, by simpa using List.find?_some h⟩
  · rintro ⟨hr, rfl⟩
    cases hfind : q.pending.find? (·.id = r.id) with
    | none => exact absurd (List.find?_eq_none.mp hfind r hr) (by simp)
    | some r' =>
      have hid : r'.id = r.id := by simpa using List.find?_some hfind
      rw [q.eq_of_id_eq (List.mem_of_find?_eq_some hfind) hr hid]

theorem find_eq_none : q.find id = none ↔ id ∉ q.ids := by
  simp [find, ids]

theorem mem_erase {r : PendingRequest} : r ∈ (q.erase id).pending ↔ r ∈ q.pending ∧ r.id ≠ id := by
  simp [erase]

/-- The request of an id and the map without the id make up the map. -/
theorem perm_find_erase (q : RequestQueue) (id : CorrelationID) :
    q.pending.Perm ((q.find id).toList ++ (q.erase id).pending) := by
  refine (List.perm_ext_iff_of_nodup q.pending_nodup ?_).mpr ?_
  · refine List.nodup_append.mpr ⟨by cases q.find id <;> simp, (q.erase id).pending_nodup, ?_⟩
    rintro r hfound _ hkept rfl
    exact (mem_erase.mp hkept).2 (find_eq_some.mp (Option.mem_toList.mp hfound)).2
  · intro r
    rw [List.mem_append, mem_erase, Option.mem_toList, find_eq_some]
    tauto

theorem removeExpired_eq {q' : RequestQueue} {expired : List PendingRequest}
    (h : q.removeExpired now = .ok (expired, q')) :
    expired = q.pending.filter (·.Overdue now) ∧ q'.pending = q.pending.filter (¬·.Overdue now) ∧
      q'.maxSize = q.maxSize := by
  unfold removeExpired at h
  split at h
  · contradiction
  · rename_i hloop
    cases h
    exact ⟨(expireLoop_eq hloop).1, (expireLoop_eq hloop).2, rfl⟩

end RequestQueue

end ModbusPp

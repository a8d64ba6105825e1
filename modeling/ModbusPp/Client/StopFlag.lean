import ModbusPp.Client.EventLoop

/-! `Server::run` and `stop` on two threads. `run` sets the flag before its loop tests it,
and `stop` clears it, so what ends a run is a stop after its beginning: a stop that comes
first is lost. The turns that the loop takes meanwhile are those of the event loop. -/

namespace ModbusPp

open Foundation

variable {σ τ : Type}

/-- Where the thread of `run` is: outside, before the test of the flag, or in the body. -/
inductive LoopControl
  | outside
  | testing
  | turning
  deriving DecidableEq

/-- The flag `running_`, the thread of `run`, and what the loop works on. -/
structure LoopThread (σ τ : Type) where
  running : Bool := false
  control : LoopControl := .outside
  serving : Publishing (Serving σ τ)

/-- The thread of `run` takes its next step, which outside of `run` is to call it; another
thread calls `stop`; or the peer sends a frame. -/
inductive ThreadMove
  | step
  | stop
  | arrive (frame : List UInt8)

inductive ThreadEvent
  | entered
  | began
  | turned
  | left
  | stopped
  | arrived (frame : List UInt8)
  deriving DecidableEq

namespace ThreadEvent

/-- The event is a step of the thread of `run`. -/
def ofLoop : ThreadEvent → Bool
  | .stopped | .arrived _ => false
  | _ => true

/-- What the event is to the event loop. -/
def moves : ThreadEvent → List (LoopMove σ τ)
  | .turned => [.turn]
  | .arrived frame => [.arrive frame]
  | _ => []

/-- What has happened since `run` was last called, if it was. -/
def sinceEntered (history : List ThreadEvent) : Option (List ThreadEvent) :=
  history.foldl (fun since e => if e = .entered then some [] else since.map (· ++ [e])) none

/-- `run` was called, and `stop` after that. -/
def Stopped (history : List ThreadEvent) : Prop :=
  ∃ since, sinceEntered history = some since ∧ .stopped ∈ since

/-- `run` was called, and has not returned. -/
def Inside (history : List ThreadEvent) : Prop :=
  ∃ since, sinceEntered history = some since ∧ .left ∉ since

theorem sinceEntered_snoc (history : List ThreadEvent) (e : ThreadEvent) :
    sinceEntered (history ++ [e]) =
      if e = .entered then some [] else (sinceEntered history).map (· ++ [e]) := by
  rw [sinceEntered, List.foldl_append]
  rfl

theorem sinceEntered_entered (history : List ThreadEvent) :
    sinceEntered (history ++ [.entered]) = some [] := by
  rw [sinceEntered_snoc, if_pos rfl]

theorem called_snoc {history : List ThreadEvent} {e : ThreadEvent} :
    sinceEntered (history ++ [e]) ≠ none ↔ e = .entered ∨ sinceEntered history ≠ none := by
  rw [sinceEntered_snoc]
  split_ifs with he
  · simp [he]
  · simp [he]

theorem sinceEntered_other {history : List ThreadEvent} {e : ThreadEvent}
    (he : e ≠ .entered) {since : List ThreadEvent} :
    sinceEntered (history ++ [e]) = some since ↔ ∃ since', sinceEntered history = some since' ∧
    since' ++ [e] = since := by
  rw [sinceEntered_snoc, if_neg he, Option.map_eq_some_iff]

theorem stopped_snoc {history : List ThreadEvent} {e : ThreadEvent} (he : e ≠ .entered) :
    Stopped (history ++ [e]) ↔ Stopped history ∨ e = .stopped ∧ sinceEntered history ≠ none := by
  simp only [Stopped, sinceEntered_other he, Option.ne_none_iff_exists']
  constructor
  · rintro ⟨_, ⟨since, hsince, rfl⟩, hmem⟩
    rcases List.mem_append.mp hmem with hmem | hmem
    · exact .inl ⟨since, hsince, hmem⟩
    · exact .inr ⟨(List.mem_singleton.mp hmem).symm, since, hsince⟩
  · rintro (⟨since, hsince, hmem⟩ | ⟨rfl, since, hsince⟩)
    · exact ⟨_, ⟨since, hsince, rfl⟩, List.mem_append_left _ hmem⟩
    · exact ⟨_, ⟨since, hsince, rfl⟩, List.mem_append_right _ (List.mem_singleton_self _)⟩

theorem inside_snoc {history : List ThreadEvent} {e : ThreadEvent} (he : e ≠ .entered) :
    Inside (history ++ [e]) ↔ Inside history ∧ e ≠ .left := by
  simp only [Inside, sinceEntered_other he]
  constructor
  · rintro ⟨_, ⟨since, hsince, rfl⟩, hno⟩
    rw [List.mem_append, not_or, List.mem_singleton] at hno
    exact ⟨⟨since, hsince, hno.1⟩, fun heq => hno.2 heq.symm⟩
  · rintro ⟨⟨since, hsince, hno⟩, hleft⟩
    refine ⟨_, ⟨since, hsince, rfl⟩, ?_⟩
    rw [List.mem_append, not_or, List.mem_singleton]
    exact ⟨hno, hleft.symm⟩

theorem Inside.called {history : List ThreadEvent} (h : Inside history) :
    sinceEntered history ≠ none := by
  obtain ⟨since, hsince, -⟩ := h
  rw [hsince]
  exact Option.some_ne_none since

end ThreadEvent

/-- One atomic step of one of the threads. -/
def Server.threadStep (server : Server σ) (W : World τ) (arrive : List UInt8 → τ → τ)
    (move : ThreadMove) (s : LoopThread σ τ) : Checked (ThreadEvent × LoopThread σ τ) :=
  match move with
  | .stop => return (.stopped, { s with running := false })
  | .arrive frame =>
    return (.arrived frame,
      { s with serving :=
        { s.serving with net := { s.serving.net with net := arrive frame s.serving.net.net } } })
  | .step =>
    match s.control with
    | .outside => return (.entered, { s with running := true, control := .testing })
    | .testing =>
      if s.running then return (.began, { s with control := .turning })
      else return (.left, { s with control := .outside })
    | .turning => do
      let (_, serving) ← server.turn W s.serving
      return (.turned, { s with control := .testing, serving })

open ThreadEvent

section run

variable {server : Server σ} {W : World τ} {arrive : List UInt8 → τ → τ}
  {s s' : LoopThread σ τ} {e : ThreadEvent}
  {move : ThreadMove} {history : List ThreadEvent}

/-- The flag and the control state say what has happened. -/
structure Recalls (s : LoopThread σ τ) (history : List ThreadEvent) : Prop where
  running : s.running = true ↔ sinceEntered history ≠ none ∧ ¬Stopped history
  control : s.control ≠ .outside ↔ Inside history
  tests : Throughout (fun before e => (e = .left → Stopped before) ∧
    (e = .began → ¬Stopped before)) history

theorem Recalls.flag_snoc (hrecalls : Recalls s history) (hentered : e ≠ .entered)
    (hstopped : e ≠ .stopped) :
    s.running = true ↔ sinceEntered (history ++ [e]) ≠ none ∧ ¬Stopped (history ++ [e]) := by
  rw [hrecalls.running, called_snoc, stopped_snoc hentered]
  simp [hentered, hstopped]

theorem Recalls.control_snoc (hrecalls : Recalls s history)
    (hentered : e ≠ .entered) (hleft : e ≠ .left) :
    s.control ≠ .outside ↔ Inside (history ++ [e]) := by
  rw [hrecalls.control, inside_snoc hentered, and_iff_left hleft]

theorem threadStep_recalls (hrecalls : Recalls s history)
    (h : server.threadStep W arrive move s = .ok (e, s')) :
    Recalls s' (history ++ [e]) := by
  cases move with
  | stop =>
    cases h
    refine ⟨?_, hrecalls.control_snoc nofun nofun,
      throughout_snoc.mpr ⟨hrecalls.tests, nofun, nofun⟩⟩
    have hstopped : ThreadEvent.stopped ≠ .entered := nofun
    rw [called_snoc, stopped_snoc hstopped]
    refine iff_of_false Bool.false_ne_true ?_
    rintro ⟨hcalled, hno⟩
    exact hno (.inr ⟨rfl, hcalled.resolve_left hstopped⟩)
  | arrive frame =>
    cases h
    exact ⟨hrecalls.flag_snoc nofun nofun, hrecalls.control_snoc nofun nofun,
      throughout_snoc.mpr ⟨hrecalls.tests, nofun, nofun⟩⟩
  | step =>
    simp only [Server.threadStep] at h
    cases hcontrol : s.control with
    | outside =>
      rw [hcontrol] at h
      cases h
      refine ⟨?_, ?_, throughout_snoc.mpr ⟨hrecalls.tests, nofun, nofun⟩⟩
      · simp [Stopped, sinceEntered_entered]
      · simp [Inside, sinceEntered_entered]
    | testing =>
      have hinside : Inside history := hrecalls.control.mp (by simp [hcontrol])
      rw [hcontrol] at h
      dsimp only at h
      split_ifs at h with hrunning
      · cases h
        refine ⟨hrecalls.flag_snoc nofun nofun, ?_,
          throughout_snoc.mpr ⟨hrecalls.tests, nofun, fun _ => ?_⟩⟩
        · simpa [inside_snoc] using hinside
        · exact (hrecalls.running.mp hrunning).2
      · cases h
        refine ⟨hrecalls.flag_snoc nofun nofun, ?_,
          throughout_snoc.mpr ⟨hrecalls.tests, fun _ => ?_, nofun⟩⟩
        · simp [inside_snoc]
        · by_contra hno
          exact hrunning (hrecalls.running.mpr ⟨hinside.called, hno⟩)
    | turning =>
      have hinside : Inside history := hrecalls.control.mp (by simp [hcontrol])
      rw [hcontrol] at h
      obtain ⟨⟨out, serving⟩, -, h⟩ := bind_eq_ok.mp h
      cases h
      refine ⟨hrecalls.flag_snoc nofun nofun, ?_,
        throughout_snoc.mpr ⟨hrecalls.tests, nofun, nofun⟩⟩
      simpa [inside_snoc] using hinside

theorem threadStep_stopped (h : server.threadStep W arrive move s = .ok (.stopped, s')) :
    s' = { s with running := false } := by
  cases move with
  | stop =>
    cases h
    rfl
  | arrive frame => cases h
  | step =>
    simp only [Server.threadStep] at h
    split at h
    · cases h
    · split_ifs at h <;> cases h
    · obtain ⟨out, -, h⟩ := bind_eq_ok.mp h
      cases h

/-- What the thread of `run` does once it is told to stop: it may end the turn it is in, and
then it leaves. -/
def Ends (events : List ThreadEvent) : Prop :=
  events = [] ∨ events = [.turned] ∨ [.left] <+: events ∨ [.turned, .left] <+: events

theorem run_ends {moves : List ThreadMove} {events : List ThreadEvent} (hflag : s.running = false)
    (hrun : runAll (server.threadStep W arrive) moves s = .ok (events, s')) :
    (s.control = .testing → events.filter ofLoop = [] ∨ [.left] <+: events.filter ofLoop) ∧
      (s.control = .turning → Ends (events.filter ofLoop)) := by
  induction moves generalizing s events with
  | nil =>
    cases hrun
    exact ⟨fun _ => .inl rfl, fun _ => .inl rfl⟩
  | cons move moves ih =>
    obtain ⟨e, s₁, events', hfirst, hothers, rfl⟩ := runAll_cons.mp hrun
    cases move with
    | stop =>
      cases hfirst
      rw [List.filter_cons_of_neg Bool.false_ne_true]
      exact ih (s := { s with running := false }) rfl hothers
    | arrive frame =>
      cases hfirst
      rw [List.filter_cons_of_neg Bool.false_ne_true]
      exact ih (s := { s with serving :=
        { s.serving with net := { s.serving.net with net := arrive frame _ } } }) hflag
        hothers
    | step =>
      simp only [Server.threadStep] at hfirst
      constructor
      · intro hcontrol
        rw [hcontrol, hflag] at hfirst
        cases hfirst
        exact .inr ⟨_, rfl⟩
      · intro hcontrol
        rw [hcontrol] at hfirst
        obtain ⟨⟨out, serving⟩, -, hfirst⟩ := bind_eq_ok.mp hfirst
        cases hfirst
        have hrest := (ih (s := { s with control := .testing, serving }) hflag hothers).1 rfl
        rw [List.filter_cons_of_pos rfl]
        rcases hrest with hnone | ⟨rest, hleft⟩
        · exact .inr (.inl (by rw [hnone]))
        · exact .inr (.inr (.inr ⟨rest, by rw [← hleft]; rfl⟩))

theorem threadStep_moves {first : Publishing (Serving σ τ)} {moves : List (LoopMove σ τ)}
    (hmoves : ∃ served, runAll (server.loopStep W arrive) moves first = .ok (served, s.serving))
    (h : server.threadStep W arrive move s = .ok (e, s')) :
    ∃ served, runAll (server.loopStep W arrive) (moves ++ e.moves) first =
      .ok (served, s'.serving) := by
  obtain ⟨served, hserved⟩ := hmoves
  have hsame {e : ThreadEvent} (hnone : e.moves (σ := σ) (τ := τ) = []) :
      ∃ served, runAll (server.loopStep W arrive) (moves ++ e.moves) first =
        .ok (served, s.serving) := by
    rw [hnone, List.append_nil]
    exact ⟨served, hserved⟩
  cases move with
  | stop =>
    cases h
    exact hsame rfl
  | arrive frame =>
    cases h
    exact ⟨_, runAll_append hserved (runAll_cons.mpr ⟨.arrived, _, [], rfl, rfl, rfl⟩)⟩
  | step =>
    simp only [Server.threadStep] at h
    cases hcontrol : s.control with
    | outside =>
      rw [hcontrol] at h
      cases h
      exact hsame rfl
    | testing =>
      rw [hcontrol] at h
      dsimp only at h
      split_ifs at h with hrunning
      · cases h
        exact hsame rfl
      · cases h
        exact hsame rfl
    | turning =>
      rw [hcontrol] at h
      obtain ⟨⟨⟨handled, log⟩, serving⟩, hturn, h⟩ := bind_eq_ok.mp h
      cases h
      have hone : server.loopStep W arrive .turn s.serving =
          .ok (.turned handled log serving.net.device, serving) := by
        rw [Server.loopStep, hturn]
        rfl
      exact ⟨_, runAll_append hserved (runAll_cons.mpr ⟨_, _, [], hone, rfl, rfl⟩)⟩

end run

/-- However the threads interleave: the turns that are taken are a run of the event loop;
`run` returns at a test of its flag exactly if `stop` was called since it began, earlier
stops having no effect; and after a stop inside of `run` no turn begins, the turn under way
and the return being the next steps of its thread. -/
theorem run_stops (server : Server σ) {W : World τ} {arrive : List UInt8 → τ → τ}
    {first : Publishing (Serving σ τ)} {moves : List ThreadMove}
    {events : List ThreadEvent} {last : LoopThread σ τ}
    (hrun : runAll (server.threadStep W arrive) moves ⟨false, .outside, first⟩ =
      .ok (events, last)) :
    (∃ served, runAll (server.loopStep W arrive) (events.flatMap ThreadEvent.moves) first =
      .ok (served, last.serving)) ∧
    Throughout (fun before e => (e = .left → Stopped before) ∧
      (e = .began → ¬Stopped before)) events ∧
    (last.running = true ↔ sinceEntered events ≠ none ∧ ¬Stopped events) ∧
    ∀ before after, events = before ++ .stopped :: after → Inside before →
      Ends (after.filter ofLoop) := by
  have hstart : Recalls (⟨false, .outside, first⟩ : LoopThread σ τ) [] := by
    refine ⟨iff_of_false Bool.false_ne_true fun h => h.1 rfl, iff_of_false (fun h => h rfl) ?_,
      throughout_nil⟩
    rintro ⟨since, hsince, -⟩
    cases hsince
  have hrecalls {moves : List ThreadMove} {events : List ThreadEvent} {last : LoopThread σ τ}
      (hrun : runAll (server.threadStep W arrive) moves ⟨false, .outside, first⟩ =
        .ok (events, last)) :
      Recalls last events := by
    have hall := runAll_appends Recalls (fun e => [e]) moves
      (fun _ _ _ _ _ _ hs h => threadStep_recalls hs h) hstart hrun
    rwa [List.flatMap_singleton', List.nil_append] at hall
  have hserved := runAll_appends
    (fun (s : LoopThread σ τ) moves => ∃ served,
      runAll (server.loopStep W arrive) moves first = .ok (served, s.serving))
    ThreadEvent.moves moves (q := []) (fun _ _ _ _ _ _ hs h => threadStep_moves hs h) ⟨[], rfl⟩ hrun
  refine ⟨hserved, (hrecalls hrun).tests, (hrecalls hrun).running, ?_⟩
  rintro before after rfl hinside
  obtain ⟨earlier, later, s₁, rfl, hbefore, hlater⟩ := runAll_split hrun
  cases later with
  | nil => cases hlater
  | cons move later =>
    obtain ⟨e, s₂, events', hstop, hafter, heq⟩ := runAll_cons.mp hlater
    cases heq
    obtain rfl := threadStep_stopped hstop
    obtain ⟨htesting, hturning⟩ := run_ends rfl hafter
    cases hcontrol : s₁.control with
    | outside => exact absurd hcontrol ((hrecalls hbefore).control.mpr hinside)
    | testing =>
      rcases htesting hcontrol with hnone | hleft
      · exact .inl hnone
      · exact .inr (.inr (.inl hleft))
    | turning => exact hturning hcontrol

/-- The meter's server before `run`. -/
def meterThread : LoopThread UInt16 Loopback := { serving := meterStart 3 }

/-- A stop, then `run` with one turn, which a second stop ends: the first stop is lost. -/
theorem run_stops_late : ∃ last,
    runAll (meter.threadStep Loopback.serverWorld Loopback.peerSends)
      [.stop, .step, .step, .stop, .step, .step] meterThread =
      .ok ([.stopped, .entered, .began, .stopped, .turned, .left], last) ∧
    (∃ served, runAll (meter.loopStep Loopback.serverWorld Loopback.peerSends)
      [.turn] (meterStart 3) =
      .ok (served, last.serving)) ∧
    Ends [.turned, .left] := by
  obtain ⟨last, hrun⟩ : ∃ last,
      runAll (meter.threadStep Loopback.serverWorld Loopback.peerSends)
        [.stop, .step, .step, .stop, .step, .step]
        meterThread = .ok ([.stopped, .entered, .began, .stopped, .turned, .left], last) := ⟨_, rfl⟩
  obtain ⟨hserved, -, -, hends⟩ := run_stops meter hrun
  exact ⟨last, hrun, hserved, hends [.stopped, .entered, .began] _ rfl ⟨_, rfl, by decide⟩⟩

end ModbusPp

import Foreman.Proofs.Executor.Calls
import Foreman.Proofs.Executor.SingleFlight

namespace Foreman.Executor

variable {s s' : State}

namespace State

/-- The poll loop and the notices of one session are there while the executor runs. -/
def Equipped (s : State) : Prop :=
  s.lifecycle = .running ∧ (∃ n, s.poller = some n ∧ s.notifier = some n) ∨
    s.lifecycle ≠ .running ∧ s.poller = none ∧ s.notifier = none

theorem Equipped.bare (h : s.Equipped) (hs : s.lifecycle ≠ .running) :
    s.poller = none ∧ s.notifier = none := by
  rcases h with ⟨running, -⟩ | ⟨-, bare⟩
  · exact absurd running hs
  · exact bare

theorem Starts.bare (starts : s.Starts) (h : s.Equipped) (hc : s.callIs Call.isStart c = true) :
    s.poller = none ∧ s.notifier = none := by
  apply h.bare
  rw [(starts.starting hc).1]
  nofun

theorem Equipped.step (h : s.Equipped) (starts : s.Starts) (ht : Transition u s e s' effects) :
    s'.Equipped := by
  cases ht with
  | startBegins free hs =>
    have bare := h.bare (by rw [hs]; nofun)
    exact .inr ⟨nofun, bare⟩
  | prepareFails hc => exact .inr ⟨nofun, starts.bare h (callIs_of_call? hc)⟩
  | startDropped hc hk =>
    have start := (callIs_of_call? hc).trans (Call.isStart_of_waits hk)
    exact .inr ⟨nofun, starts.bare h start⟩
  | requeued | launched => exact .inl ⟨rfl, s.sessions, rfl, rfl⟩
  | stopped => exact .inr ⟨nofun, rfl, rfl⟩
  | startRefused | requeueSkipped | requeueBegins | stopRefused | pollEnters | pollTurnsBack
  | idleSeen | fetchSkipped | fetchBegins | checkedOut | nothingTaken | pollLeaves | waitEnds
  | waitRegisters | woken | lapsed | expired | pollDropped | waitDropped | replied | finished
  | elapsed => exact h

theorem equipped_initial : State.initial.Equipped := .inr ⟨nofun, rfl, rfl⟩

end State

theorem Reachable.equipped (h : Reachable u s) : s.Equipped := by
  have keep := h.keeps (P := fun s => s.Starts ∧ s.Equipped)
    (fun ⟨starts, h⟩ ht => ⟨starts.step ht, h.step starts ht⟩)
    ⟨State.starts_initial, State.equipped_initial⟩
  exact keep.2

/-- Where a start that has failed or was given up leaves an executor. -/
structure State.Abandoned (s : State) (c : Nat) (s' : State) : Prop where
  lifecycle : s'.lifecycle = .stopped
  poller : s'.poller = none
  notifier : s'.notifier = none
  call : s'.call? c = none
  current : s'.current = s.current
  waiters : s'.waiters = s.waiters
  runs : s'.runs = s.runs

theorem State.Equipped.abandoned (h : s.Equipped) (starts : s.Starts)
    (hc : s.callIs Call.isStart c = true) :
    s.Abandoned c { s.endCall c with lifecycle := .stopped } where
  lifecycle := rfl
  poller := (starts.bare h hc).1
  notifier := (starts.bare h hc).2
  call := State.call?_endCall_self ..
  current := rfl
  waiters := rfl
  runs := rfl

theorem Transition.stop_refused (ht : Transition u s e s' effects)
    (h : .stopped (.error .notRunning) ∈ effects) : e = .stop ∧ s.lifecycle ≠ .running := by
  cases ht.cause h with
  | refusesStop hs => exact ⟨rfl, hs⟩

theorem Transition.start_refused (ht : Transition u s e s' effects)
    (h : .returned c (.started (.error .alreadyRunning)) ∈ effects) :
    e = .start c ∧ s.lifecycle ≠ .stopped := by
  cases ht.cause h with
  | refusesStart hs => exact ⟨rfl, hs⟩

/-- The steps of a start itself: it is called, it goes on, or it is given up. -/
def State.StepOfStart (s : State) (e : Event) (c : Nat) : Prop :=
  e = .start c ∨ e.caller? = some c ∧ s.callIs Call.isStart c = true

theorem Transition.current_of_start (ht : Transition u s e s' effects) (h : s.StepOfStart e c) :
    s'.current = s.current ∧ s'.waiters = s.waiters ∧ s'.runs = s.runs := by
  rcases h with rfl | ⟨he, start⟩
  · cases ht with
    | startBegins | startRefused => exact ⟨rfl, rfl, rfl⟩
  · -- The steps that do touch them are those of other calls, or of runs.
    cases ht with
    | checkedOut hc | woken hc | lapsed hc | expired hc | waitDropped hc =>
      cases he
      rw [State.callIs_of_call? hc] at start
      cases start
    | waitRegisters free =>
      cases he
      rw [State.callIs, free] at start
      cases start
    | replied | finished => cases he
    | startBegins | startRefused | prepareFails | requeueSkipped | requeueBegins | requeued
    | launched | stopped | stopRefused | pollEnters | pollTurnsBack | idleSeen | fetchSkipped
    | fetchBegins | nothingTaken | pollLeaves | waitEnds | startDropped | pollDropped | elapsed =>
      exact ⟨rfl, rfl, rfl⟩

/-- Whoever starts and stops an executor in this state can rely on this. -/
structure AtomicControls (u : Setup) (s : State) : Prop where
  start_refused : ∀ c, s.call? c = none → s.lifecycle ≠ .stopped →
    s.step? u (.start c) = some (s, [.returned c (.started (.error .alreadyRunning))])
  only_start_refused : ∀ e s' effects c, s.step? u e = some (s', effects) →
    .returned c (.started (.error .alreadyRunning)) ∈ effects →
      e = .start c ∧ s.lifecycle ≠ .stopped
  stop_refused : s.lifecycle ≠ .running →
    s.step? u .stop = some (s, [.stopped (.error .notRunning)])
  only_stop_refused : ∀ e s' effects, s.step? u e = some (s', effects) →
    .stopped (.error .notRunning) ∈ effects → e = .stop ∧ s.lifecycle ≠ .running
  start_fails : ∀ c f, s.call? c = some .preparing →
    ∃ s', s.Abandoned c s' ∧ s.step? u (.prepared c (.error f)) =
      some (s', [.returned c (.started (.error (.environment (u.policy.redactor.redact f.full))))])
  start_dropped : ∀ c k, s.call? c = some k → k = .preparing ∨ k = .requeueing →
    ∃ s', s.Abandoned c s' ∧ s.step? u (.dropped c) = some (s', [])
  start_aloof : ∀ e s' effects c, s.step? u e = some (s', effects) → s.StepOfStart e c →
    s'.current = s.current ∧ s'.waiters = s.waiters ∧ s'.runs = s.runs
  starting_iff : s.lifecycle = .starting ↔ ∃ c, ∀ d, s.callIs Call.isStart d = true ↔ d = c
  starting_of_call : ∀ c, s.callIs Call.isStart c = true → s.lifecycle = .starting
  running_iff : s.lifecycle = .running ↔ s.poller.isSome ∧ s.notifier.isSome
  same_session : s.poller = s.notifier
  /-- No poll finds the executor idle and its notices closed. -/
  checks_out : ∀ c t, s.call? c = some .fetching → s.isIdle = true →
    ∃ s', s.step? u (.fetched c (.ok (some t))) = some (s', [.beginRun s.runCount])

theorem State.Starts.starting_iff (h : s.Starts) :
    s.lifecycle = .starting ↔ ∃ c, ∀ d, s.callIs Call.isStart d = true ↔ d = c := by
  rcases h with ⟨hs, one⟩ | ⟨hs, none⟩
  · exact ⟨fun _ => one, fun _ => hs⟩
  · refine ⟨fun h => absurd h hs, ?_⟩
    rintro ⟨c, only⟩
    have start := (only c).2 rfl
    rw [none c] at start
    cases start

theorem State.Equipped.running_iff (h : s.Equipped) :
    s.lifecycle = .running ↔ s.poller.isSome ∧ s.notifier.isSome := by
  rcases h with ⟨hs, n, hp, hn⟩ | ⟨hs, hp, hn⟩
  · simp [hs, hp, hn]
  · simp [hs, hp]

/-- In any order of events starts and stops take effect at once or not at all. -/
theorem Reachable.atomic_controls (h : Reachable u s) : AtomicControls u s where
  start_refused c free hs := by
    simp only [State.step?, State.start, free, Option.isNone_none, if_true]
    rw [if_neg hs]
  only_start_refused e s' effects c hs refused := (Transition.of_step? hs).start_refused refused
  stop_refused hs := by
    simp only [State.step?, State.stop]
    rw [if_neg hs]
  only_stop_refused e s' effects hs refused := (Transition.of_step? hs).stop_refused refused
  start_fails c f hc := by
    refine ⟨_, h.equipped.abandoned h.starts (State.callIs_of_call? hc), ?_⟩
    simp only [State.step?]
    rw [if_pos hc]
    rfl
  start_dropped c k hc hk := by
    have start := (State.callIs_of_call? hc).trans (Call.isStart_of_waits hk)
    refine ⟨_, h.equipped.abandoned h.starts start, ?_⟩
    simp only [State.step?, hc]
    rcases hk with rfl | rfl <;> rfl
  start_aloof e s' effects c hs start := (Transition.of_step? hs).current_of_start start
  starting_iff := h.starts.starting_iff
  starting_of_call c hc := (h.starts.starting hc).1
  running_iff := h.equipped.running_iff
  same_session := by
    rcases h.equipped with ⟨-, n, hp, hn⟩ | ⟨-, hp, hn⟩ <;> rw [hp, hn]
  checks_out c t hc idle := by
    obtain ⟨running, -⟩ := State.isIdle_iff.1 idle
    obtain ⟨-, taken⟩ := h.equipped.running_iff.1 running
    obtain ⟨n, hn⟩ := Option.isSome_iff_exists.1 taken
    refine ⟨((s.changeCall c (.leaving false)).checkOut t n).1, ?_⟩
    simp only [State.step?, State.fetched, hn, idle]
    rw [if_pos hc]
    rfl

/-- A start while a task of the session before is in flight. -/
def restartingState : State :=
  { busyState with
    lifecycle := .starting
    poller := none
    notifier := none
    waiters := .empty
    calls := [(2, .preparing)] }

theorem reachable_restartingState : Reachable plainSetup restartingState :=
  ⟨_, .of_steps? (busyEvents ++ [.stop, .start 2]) rfl⟩

theorem atomic_controls_restarting :
    Reachable plainSetup restartingState ∧ AtomicControls plainSetup restartingState :=
  ⟨reachable_restartingState, reachable_restartingState.atomic_controls⟩

end Foreman.Executor

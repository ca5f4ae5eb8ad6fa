import Foreman.Proofs.Executor.Parts
import Foreman.Proofs.Run.Progress

namespace Foreman.Executor

namespace State

variable {s s' : State}

structure Flight (s : State) : Prop where
  runs : s.runs = [] ∧ s.current = none ∨ ∃ r, s.runs = [r] ∧ s.current = some r.task.ref
  waiters : s.current = none → s.waiters.pending = []

theorem Flight.runs_of_idle (h : Flight s) (idle : s.current = none) : s.runs = [] := by
  rcases h.runs with ⟨hr, _⟩ | ⟨r, _, hc⟩
  · exact hr
  · rw [hc] at idle
    cases idle

theorem Flight.run?_eq (h : Flight s) (hr : s.run? n = some r) :
    r.number = n ∧ s.runs = [r] ∧ s.current = some r.task.ref := by
  have hn : r.number = n := by simpa using List.find?_some hr
  have hm : r ∈ s.runs := List.mem_of_find?_eq_some hr
  rcases h.runs with ⟨he, _⟩ | ⟨r', he, hc⟩
  · rw [he] at hm
    cases hm
  · rw [he, List.mem_singleton] at hm
    subst r'
    exact ⟨hn, he, hc⟩

theorem Flight.runs_of_mem (h : Flight s) (hm : r ∈ s.runs) : s.runs = [r] := by
  rcases h.runs with ⟨he, _⟩ | ⟨r', he, _⟩
  · rw [he] at hm
    cases hm
  · rw [he, List.mem_singleton] at hm
    rw [he, hm]

theorem Flight.run?_of_mem (h : Flight s) (hm : r ∈ s.runs) : s.run? r.number = some r := by
  simp [run?, h.runs_of_mem hm]

theorem runs_setStage (h : s.runs = [r]) (stage : Run.Stage) :
    (s.setStage r.number stage).runs = [{ r with stage }] := by
  simp [setStage, h]

theorem runs_finish (h : s.runs = [r]) : (s.finish r.number).1.runs = [] := by
  simp [finish, h]

theorem pending_of_audience (h : Audience s s') (idle : s.current = none)
    (none : s.waiters.pending = []) : s'.waiters.pending = [] := by
  cases h with
  | kept same => rw [same, none]
  | registers busy => exact (busy idle).elim
  | looks waiters => rw [waiters, IdleRegistry.pending_look, none]
  | drops waiters => rw [waiters, IdleRegistry.pending_drop, none]
  | cancels waiters => rw [waiters, IdleRegistry.pending_cancel, none, List.erase_nil]
  | tells _ waiters => rw [waiters, IdleRegistry.pending_resolveAll]

theorem Flight.step (h : Flight s) (ht : Transition u s e s' effects) : Flight s' where
  runs := by
    cases ht.work with
    | kept runs current =>
      rw [runs, current]
      exact h.runs
    | takes he idle before after runs current =>
      rw [h.runs_of_idle (isIdle_iff.1 idle).2] at runs
      exact .inr ⟨_, runs, current⟩
    | hears he hr runs current =>
      obtain ⟨-, live, hc⟩ := h.run?_eq hr
      exact .inr ⟨_, runs.trans (runs_setStage live _), current.trans hc⟩
    | ends he hr ended hs =>
      obtain ⟨rfl, live, -⟩ := h.run?_eq hr
      rw [hs]
      exact .inl ⟨runs_finish live, rfl⟩
  waiters idle := by
    cases ht.work with
    | kept _ current | hears _ _ _ current =>
      have before : s.current = none := current ▸ idle
      exact pending_of_audience ht.audience before (h.waiters before)
    | takes _ _ _ _ _ current =>
      rw [current] at idle
      cases idle
    | ends _ _ _ hs =>
      rw [hs]
      rfl

/-- Only the end of the one live run ends what is in flight. -/
theorem Flight.step_cases (h : Flight s) (hm : r ∈ s.runs) (ht : Transition u s e s' effects) :
    s'.current = s.current ∧ r.hears u e ∈ s'.runs ∨
      e = .finished r.number ∧ r.stage.isOver = true ∧ s' = (s.finish r.number).1 := by
  cases ht.work with
  | kept runs current silent =>
    rw [silent, runs]
    exact .inl ⟨current, hm⟩
  | takes he idle =>
    rw [h.runs_of_idle (isIdle_iff.1 idle).2] at hm
    cases hm
  | hears he hr runs current =>
    obtain ⟨rfl, live, -⟩ := h.run?_eq hr
    rw [live, List.mem_singleton] at hm
    subst hm he
    refine .inl ⟨current, ?_⟩
    rw [runs, runs_setStage live, LiveRun.hears, if_pos rfl]
    exact List.mem_singleton_self _
  | ends he hr ended hs =>
    obtain ⟨rfl, live, -⟩ := h.run?_eq hr
    rw [live, List.mem_singleton] at hm
    subst hm
    exact .inr ⟨he, ended, hs⟩

/-- A live run was live before or has just been checked out. -/
theorem Flight.run_cases (h : Flight s) (ht : Transition u s e s' effects) (hm : r' ∈ s'.runs) :
    (∃ r ∈ s.runs, r' = r.hears u e) ∨
      ∃ c t session, e = .fetched c (.ok (some t)) ∧ r' = ⟨s.runCount, t, session, .marking⟩ := by
  cases ht.work with
  | kept runs current silent =>
    rw [runs] at hm
    exact .inl ⟨r', hm, (silent r').symm⟩
  | takes he idle before after runs current =>
    rw [runs, h.runs_of_idle (isIdle_iff.1 idle).2, List.nil_append, List.mem_singleton] at hm
    exact .inr ⟨_, _, _, he, hm⟩
  | hears he hr runs current =>
    obtain ⟨rfl, live, -⟩ := h.run?_eq hr
    rw [runs, runs_setStage live, List.mem_singleton] at hm
    refine .inl ⟨_, List.mem_of_find?_eq_some hr, ?_⟩
    rw [hm, he, LiveRun.hears, if_pos rfl]
  | ends he hr ended hs =>
    obtain ⟨rfl, live, -⟩ := h.run?_eq hr
    rw [hs, runs_finish live] at hm
    cases hm

/-- However a run ends, one step clears the task in flight and tells every pending waiter; until
then the task stays in flight. -/
def EndsAtOnce (u : Setup) (s : State) (r : LiveRun) : Prop :=
  (r.stage.isOver = true → (s.step? u (.finished r.number)).isSome) ∧
    ∀ e s' effects, s.step? u e = some (s', effects) →
      s'.current = s.current ∧ (∃ r' ∈ s'.runs, r'.number = r.number ∧ r'.task = r.task) ∨
        e = .finished r.number ∧ r.stage.isOver = true ∧ s'.current = none ∧ s'.runs = [] ∧
          s'.waiters.pending = [] ∧
            ∀ w ∈ s.waiters.pending, s.waiters.receiver w = .waiting →
              s'.waiters.receiver w = .resolved

theorem Flight.endsAtOnce (h : Flight s) (hm : r ∈ s.runs) : EndsAtOnce u s r := by
  have he := h.runs_of_mem hm
  constructor
  · intro ended
    simp [step?, h.run?_of_mem hm, ended]
  · intro e s' effects hs
    rcases h.step_cases hm (.of_step? hs) with ⟨hc, hl⟩ | ⟨hev, ended, hs'⟩
    · exact .inl ⟨hc, _, hl, r.number_hears, r.task_hears⟩
    · subst hs'
      refine .inr ⟨hev, ended, rfl, runs_finish he, rfl, fun w hw listening => ?_⟩
      rw [finish, IdleRegistry.receiver_resolveAll, if_pos hw, listening]
      rfl

end State

theorem State.flight_initial : State.initial.Flight := ⟨.inl ⟨rfl, rfl⟩, fun _ => rfl⟩

theorem Reachable.flight (h : Reachable u s) : s.Flight :=
  h.keeps State.Flight.step State.flight_initial

/-- Starts, stops, polls, waits and runs may be mixed in any way. -/
theorem Reachable.single_flight (h : Reachable u s) :
    (s.current.isSome ↔ ∃ r, s.runs = [r]) ∧ (∀ r ∈ s.runs, s.current = some r.task.ref) ∧
      s.runs.length ≤ 1 ∧ (s.waiters.pending ≠ [] → s.current.isSome) ∧
        ∀ r ∈ s.runs, s.EndsAtOnce u r := by
  have hf := h.flight
  refine ⟨?_, ?_, ?_, ?_, fun r => hf.endsAtOnce⟩
  · rcases hf.runs with ⟨hr, hc⟩ | ⟨r, hr, hc⟩ <;> simp [hr, hc]
  · rcases hf.runs with ⟨hr, hc⟩ | ⟨r, hr, hc⟩ <;> simp [hr, hc]
  · rcases hf.runs with ⟨hr, hc⟩ | ⟨r, hr, hc⟩ <;> simp [hr]
  · intro hw
    cases hc : s.current with
    | none => exact (hw (hf.waiters hc)).elim
    | some t => rfl

/-- A setup without secrets. -/
def plainSetup : Setup := ⟨⟨10000000000⟩, 64, Run.plainPolicy⟩

/-- A start and a poll that checks a task out, whose run is marking it. -/
def busyEvents : List Event :=
  [.start 0, .prepared 0 (.ok ()), .requeued 0 (.ok 0), .poll 1, .looked 1, .asked 1,
    .fetched 1 (.ok (some Run.plainTask)), .left 1]

def busyState : State where
  lifecycle := .running
  current := some Run.plainTask.ref
  poller := some 0
  notifier := some 0
  waiters := ⟨[0], [.waiting]⟩
  gate := none
  calls := [(2, .waiting 0 30000)]
  runs := [⟨0, Run.plainTask, 0, .marking⟩]
  sessions := 1
  runCount := 1
  now := 0

theorem reachable_busyState : Reachable plainSetup busyState :=
  ⟨_, .of_steps? (busyEvents ++ [.wait 2 30000]) rfl⟩

theorem single_flight_busy : Reachable plainSetup busyState ∧ busyState.waiters.pending = [0] ∧
    (busyState.current.isSome ↔ ∃ r, busyState.runs = [r]) ∧
      (∀ r ∈ busyState.runs, busyState.current = some r.task.ref) ∧
        busyState.runs.length ≤ 1 ∧
          (busyState.waiters.pending ≠ [] → busyState.current.isSome) ∧
            ∀ r ∈ busyState.runs, busyState.EndsAtOnce plainSetup r :=
  ⟨reachable_busyState, rfl, reachable_busyState.single_flight⟩

end Foreman.Executor

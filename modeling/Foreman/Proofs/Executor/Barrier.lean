import Foreman.Proofs.Executor.Calls
import Foreman.Proofs.Executor.SingleFlight

namespace Foreman.Executor

variable {s s' : State} {r : LiveRun} {past : List Occurrence}

/-- Whether a start was called and has later left the executor running. -/
def Restarted (past : List Occurrence) : Prop :=
  ∃ c o₁ o₂, [o₁, o₂].Sublist past ∧ o₁.event = .start c ∧ o₂.event.launched? = some c

theorem Restarted.append (h : Restarted past) (more : List Occurrence) :
    Restarted (past ++ more) := by
  obtain ⟨c, o₁, o₂, hs, h₁, h₂⟩ := h
  exact ⟨c, o₁, o₂, hs.trans (List.sublist_append_left ..), h₁, h₂⟩

theorem Transition.isIdle_of_beginRun (ht : Transition u s e s' effects)
    (h : .beginRun n ∈ effects) : s.isIdle = true := by
  cases ht.cause h with
  | begins idle => exact idle

/-- Where an executor stands after a past that began with a stop. -/
structure SinceStop (past : List Occurrence) (s : State) : Prop where
  starts : s.callIs Call.isStart c = true → ∃ o ∈ past, o.event = .start c
  restarted : s.lifecycle = .running → Restarted past

theorem SinceStop.step (h : SinceStop past s) (ht : Transition u s e s' effects) :
    SinceStop (past ++ [⟨e, effects⟩]) s' := by
  have earlier {c : Nat} (hc : s.callIs Call.isStart c = true) :
      ∃ o ∈ past ++ [⟨e, effects⟩], o.event = .start c := by
    obtain ⟨o, ho, he⟩ := h.starts hc
    exact ⟨o, List.mem_append_left _ ho, he⟩
  cases ht.control with
  | kept same starts =>
    constructor
    · intro c hc
      exact earlier (starts c ▸ hc)
    · intro running
      exact (h.restarted (same ▸ running)).append _
  | @begins c he before after starts =>
    constructor
    · intro d hd
      by_cases hdc : d = c
      · subst hdc
        exact ⟨_, List.mem_append_right _ (List.mem_singleton_self _), he⟩
      · rw [starts, if_neg hdc] at hd
        exact earlier hd
    · rw [after]
      nofun
  | @fails c hc after starts =>
    constructor
    · intro d hd
      rw [starts] at hd
      split at hd
      · cases hd
      · exact earlier hd
    · rw [after]
      nofun
  | @launches c he hc after starts =>
    constructor
    · intro d hd
      rw [starts] at hd
      split at hd
      · cases hd
      · exact earlier hd
    · intro _
      obtain ⟨o, ho, hs⟩ := h.starts hc
      refine ⟨c, o, ⟨e, effects⟩, ?_, hs, he⟩
      exact (List.singleton_sublist.2 ho).append (List.Sublist.refl [_])
  | stops he before after starts =>
    constructor
    · intro c hc
      exact earlier (starts c ▸ hc)
    · rw [after]
      nofun

/-- A run after a history. -/
def LiveRun.after (u : Setup) (r : LiveRun) (past : List Occurrence) : LiveRun :=
  past.foldl (fun r o => r.hears u o.event) r

theorem LiveRun.after_append (r : LiveRun) (past : List Occurrence) (o : Occurrence) :
    r.after u (past ++ [o]) = (r.after u past).hears u o.event :=
  List.foldl_append ..

@[simp] theorem LiveRun.number_after (r : LiveRun) (past : List Occurrence) :
    (r.after u past).number = r.number := by
  induction past generalizing r with
  | nil => rfl
  | cons o past ih => exact (ih _).trans (r.number_hears)

/-- A run is live, with all it has heard, or it has ended after its last stage. -/
def LiveRun.KeepsOn (u : Setup) (r : LiveRun) (past : List Occurrence) (s : State) : Prop :=
  r.after u past ∈ s.runs ∨
    ∃ before o rest, past = before ++ o :: rest ∧ o.event = .finished r.number ∧
      (r.after u before).stage.isOver = true

theorem LiveRun.KeepsOn.step (h : r.KeepsOn u past s) (hf : s.Flight)
    (ht : Transition u s e s' effects) : r.KeepsOn u (past ++ [⟨e, effects⟩]) s' := by
  rcases h with live | ⟨before, o, rest, rfl, he, ended⟩
  · rcases hf.step_cases live ht with ⟨_, hr⟩ | ⟨he, ended, _⟩
    · refine .inl ?_
      rw [after_append]
      exact hr
    · rw [number_after] at he
      exact .inr ⟨past, _, [], rfl, he, ended⟩
  · exact .inr ⟨before, o, rest ++ [⟨e, effects⟩], List.append_assoc .., he, ended⟩

/-- A step that tells a waiter of idleness does so when no task is in flight. -/
theorem Audience.told (h : Audience s s') (hw : s'.waiters.receiver w = .resolved) :
    s.waiters.receiver w = .resolved ∨ s'.current = none := by
  cases h with
  | kept same =>
    rw [same] at hw
    exact .inl hw
  | registers _ waiters =>
    rw [waiters, IdleRegistry.receiver_register] at hw
    split at hw
    · cases hw
    · exact .inl hw
  | looks waiters =>
    rw [waiters, IdleRegistry.receiver_look] at hw
    split at hw
    · cases hw
    · exact .inl hw
  | drops waiters =>
    rw [waiters, IdleRegistry.receiver_drop] at hw
    split at hw
    · cases hw
    · exact .inl hw
  | cancels waiters =>
    rw [waiters, IdleRegistry.receiver_cancel] at hw
    split at hw
    · cases hr : s.waiters.receiver w <;> simp [hr, IdleRegistry.closeReceiver] at hw
      exact .inl rfl
    · exact .inl hw
  | tells idle => exact .inr idle

theorem Audience.registered (h : Audience s s') :
    s.waiters.receivers.length ≤ s'.waiters.receivers.length := by
  cases h with
  | kept same => exact Nat.le_of_eq (congrArg (·.receivers.length) same.symm)
  | registers _ waiters =>
    rw [waiters]
    simp [IdleRegistry.register]
  | looks waiters =>
    rw [waiters, IdleRegistry.look]
    split <;> simp
  | drops waiters =>
    rw [waiters]
    simp [IdleRegistry.drop]
  | cancels waiters =>
    rw [waiters, IdleRegistry.cancel]
    split <;> simp
  | tells _ waiters =>
    rw [waiters]
    simp [IdleRegistry.resolveAll]

theorem Transition.free_of_wait (ht : Transition u s (.wait c timeout) s' effects) :
    s.call? c = none := by
  cases ht with
  | waitEnds free | waitRegisters free => exact free

theorem Transition.current (ht : Transition u s e s' effects) (h : s.lifecycle = .stopped) :
    s'.current = s.current ∨ s'.current = none := by
  cases ht.work with
  | kept _ current | hears _ _ _ current => exact .inl current
  | takes _ idle =>
    rw [(State.isIdle_iff.1 idle).1] at h
    cases h
  | ends _ _ _ hs =>
    rw [hs]
    exact .inr rfl

/-- Where an executor stands that was stopped, and not started since, when `k` waiters had been
registered. Whoever registered later and was told, was told when the last run had ended. -/
structure Draining (k : Nat) (past : List Occurrence) (s : State) : Prop where
  stopped : s.lifecycle = .stopped
  starts : ∀ c, s.callIs Call.isStart c = false
  registered : k ≤ s.waiters.receivers.length
  told : k ≤ w → s.waiters.receiver w = .resolved → s.current = none
  asked : o ∈ past → o.event = .wait c timeout → s.call? c = some (.waiting w deadline) → k ≤ w

theorem Draining.step (h : Draining k past s) (ht : Transition u s e s' effects)
    (he : ∀ c, e ≠ .start c) : Draining k (past ++ [⟨e, effects⟩]) s' where
  stopped := by
    cases ht.control with
    | kept same => rw [same, h.stopped]
    | begins hb => exact (he _ hb).elim
    | fails _ after | stops _ _ after => exact after
    | launches _ hc =>
      rw [h.starts] at hc
      cases hc
  starts c := by
    cases ht.control with
    | kept _ starts | stops _ _ _ starts => rw [starts, h.starts]
    | begins hb => exact (he _ hb).elim
    | fails hc | launches _ hc =>
      rw [h.starts] at hc
      cases hc
  registered := Nat.le_trans h.registered ht.audience.registered
  told {w} hk hw := by
    rcases ht.audience.told hw with told | idle
    · rcases ht.current h.stopped with same | idle
      · rw [same, h.told hk told]
      · exact idle
    · exact idle
  asked {o c timeout w deadline} ho hwait hc := by
    rcases ht.entry hc with before | new
    · rcases List.mem_append.1 ho with earlier | last
      · exact h.asked earlier hwait before
      · rw [List.mem_singleton] at last
        subst last
        subst hwait
        rw [ht.free_of_wait] at before
        cases before
    · cases new
      exact h.registered

theorem Transition.current_of_answer (ht : Transition u s e s' effects)
    (h : .returned c (.idle v) ∈ effects) : s'.current = s.current := by
  have cause := ht.cause h
  cases ht.work with
  | kept _ current | hears _ _ _ current => exact current
  | takes he | ends he =>
    subst he
    cases cause

/-- Who is told that the executor is idle has either been told of a run's end before, or is told in
a state in which no task is in flight. -/
theorem Transition.idle (ht : Transition u s e s' effects)
    (h : .returned c (.idle true) ∈ effects) :
    s'.current = none ∨
      s'.current = s.current ∧ e = .woken c ∧
        ∃ w deadline,
          s.call? c = some (.waiting w deadline) ∧ s.waiters.receiver w = .resolved := by
  have same := ht.current_of_answer h
  cases ht.cause h with
  | findsIdle idle => exact .inl (same.trans idle)
  | wakes hc told => exact .inr ⟨same, rfl, _, _, hc, told⟩
  | expires hc hv => exact .inl (same.trans (Option.isNone_iff_eq_none.1 hv.symm))

theorem Draining.idle (h : Draining k past s) (ht : Transition u s e s' effects)
    (asked : ∃ o ∈ past ++ [⟨e, effects⟩], o.event = .wait c timeout)
    (told : .returned c (.idle true) ∈ effects) : s'.current = none := by
  rcases ht.idle told with idle | ⟨same, rfl, w, deadline, hc, hw⟩
  · exact idle
  · obtain ⟨o, ho, he⟩ := asked
    rcases List.mem_append.1 ho with earlier | last
    · rw [same]
      exact h.told (h.asked earlier he hc) hw
    · rw [List.mem_singleton] at last
      subst last
      cases he

theorem Draining.stays_idle (h : Draining k past s) (ht : Transition u s e s' effects)
    (idle : s.current = none) : s'.current = none := by
  rcases ht.current h.stopped with same | idle'
  · rw [same, idle]
  · exact idle'

def NoStart (past : List Occurrence) : Prop := ∀ o ∈ past, ∀ c, o.event ≠ .start c

theorem NoStart.left (h : NoStart (past ++ more)) : NoStart past :=
  fun o' ho => h o' (List.mem_append_left _ ho)

theorem NoStart.last (h : NoStart (past ++ [o])) : ∀ c, o.event ≠ .start c :=
  h o (List.mem_append_right _ (List.mem_singleton_self _))

/-- A stop that does what it is asked for finds no start under way. -/
theorem Reachable.stop (h : Reachable u s) (hs : s.step? u .stop = some (s', effects))
    (ok : .stopped (.ok message) ∈ effects) :
    Reachable u s' ∧ s'.lifecycle = .stopped ∧ s'.runs = s.runs ∧
      ∀ c, s'.callIs Call.isStart c = false := by
  refine ⟨h.leads (.head hs (.refl _)), ?_⟩
  cases Transition.of_step? hs with
  | stopped running =>
    refine ⟨rfl, rfl, fun c => ?_⟩
    rcases h.starts with ⟨starting, _⟩ | ⟨_, none⟩
    · rw [running] at starting
      cases starting
    · exact none c
  | stopRefused => simp at ok

theorem SinceStop.of_leads (stopped : s.lifecycle = .stopped)
    (starts : ∀ c, s.callIs Call.isStart c = false) (hl : Leads u s past s') :
    SinceStop past s' := by
  refine hl.keeps_past SinceStop.step ⟨fun hc => ?_, fun running => ?_⟩
  · rw [starts] at hc
    cases hc
  · rw [stopped] at running
    cases running

theorem LiveRun.KeepsOn.of_leads (h : Reachable u s) (hr : r ∈ s.runs) (hl : Leads u s past s') :
    r.KeepsOn u past s' := by
  have keep := hl.keeps_past (P := fun past s => s.Flight ∧ r.KeepsOn u past s)
    (fun h ht => ⟨h.1.step ht, h.2.step h.1 ht⟩) ⟨h.flight, .inl hr⟩
  exact keep.2

theorem Draining.of_leads (stopped : s.lifecycle = .stopped)
    (starts : ∀ c, s.callIs Call.isStart c = false) (hl : Leads u s past s')
    (quiet : NoStart past) : Draining s.waiters.receivers.length past s' := by
  refine hl.keeps_past (P := fun past s' => NoStart past → Draining _ past s')
    (fun h ht quiet => (h quiet.left).step ht quiet.last) (fun _ => ?_) quiet
  refine ⟨stopped, starts, Nat.le_refl _, fun hk told => ?_, nofun⟩
  simp [IdleRegistry.receiver, List.getElem?_eq_none hk] at told

/-- An executor that is idle while it drains stays so until it is started. -/
theorem Draining.idle_of_leads (h : Draining k before s) (idle : s.current = none)
    (hl : Leads u s rest s') (quiet : NoStart (before ++ rest)) : s'.current = none := by
  have keep := hl.keeps_past_from
    (P := fun past s => NoStart past → Draining k past s ∧ s.current = none)
    (fun h ht quiet => ?_) (fun _ => ⟨h, idle⟩) quiet
  · exact keep.2
  · obtain ⟨draining, idle⟩ := h quiet.left
    exact ⟨draining.step ht quiet.last, draining.stays_idle ht idle⟩

/-- Whatever happens after a stop: before a task is checked out, a start has been called and has
left the executor running; a run live at the stop keeps on until it has come to an end of its own;
and whoever waits and is told that the executor is idle finds it so until the next start. -/
theorem Reachable.stop_barrier (h : Reachable u s) (hs : s.step? u .stop = some (s₁, effects))
    (ok : .stopped (.ok message) ∈ effects) (hl : Leads u s₁ past s₂) :
    (∀ before o rest n, past = before ++ o :: rest → .beginRun n ∈ o.effects → Restarted before) ∧
    (∀ r ∈ s.runs, r.KeepsOn u past s₂) ∧
    (NoStart past → ∀ before o rest c timeout, past = before ++ o :: rest →
      (∃ o' ∈ before ++ [o], o'.event = .wait c timeout) → .returned c (.idle true) ∈ o.effects →
        s₂.current = none ∧ s₂.runs = []) := by
  obtain ⟨h₁, stopped, runs, starts⟩ := h.stop hs ok
  refine ⟨?_, fun r hr => .of_leads h₁ (runs ▸ hr) hl, ?_⟩
  · rintro before o rest n rfl begun
    obtain ⟨t, t', hb, ht, -⟩ := hl.at_step
    have since : SinceStop before t := .of_leads stopped starts hb
    exact since.restarted (State.isIdle_iff.1 (ht.isIdle_of_beginRun begun)).1
  · rintro quiet before o rest c timeout rfl asked told
    obtain ⟨t, t', hb, ht, hr⟩ := hl.at_step
    rw [List.append_cons] at quiet
    have draining : Draining _ before t := .of_leads stopped starts hb quiet.left.left
    have idle : s₂.current = none :=
      (draining.step ht quiet.left.last).idle_of_leads (draining.idle ht asked told) hr quiet
    exact ⟨idle, (h₁.leads hl).flight.runs_of_idle idle⟩

/-- An executor with a task in flight. -/
def inFlight : State := { busyState with waiters := .empty, calls := [] }

theorem reachable_inFlight : Reachable plainSetup inFlight :=
  ⟨_, .of_steps? busyEvents rfl⟩

def stoppedState : State :=
  { inFlight with lifecycle := .stopped, poller := none, notifier := none }

/-- A wait, and a run that fails to mark its task. -/
def drainEvents : List Event :=
  [.wait 2 30000, .replied 0 (.written (.panicked .other)), .replied 0 (.written (.ok ())),
    .finished 0, .woken 2]

def drainHistory : List Occurrence :=
  ((stoppedState.steps? plainSetup drainEvents).getD ([], stoppedState)).1

def drainedState : State :=
  { stoppedState with current := none, waiters := ⟨[], [.closed]⟩, runs := [] }

theorem leads_drainedState : Leads plainSetup stoppedState drainHistory drainedState :=
  .of_steps? drainEvents rfl

theorem stop_barrier_drainHistory :
    (Reachable plainSetup inFlight ∧ Leads plainSetup stoppedState drainHistory drainedState ∧
      inFlight.step? plainSetup .stop =
        some (stoppedState, [.closePoller 0, .stopped (.ok (stoppedMessage inFlight.current))])) ∧
    (∀ before o rest n, drainHistory = before ++ o :: rest → .beginRun n ∈ o.effects →
      Restarted before) ∧
    (∀ r ∈ inFlight.runs, r.KeepsOn plainSetup drainHistory drainedState) ∧
    (NoStart drainHistory → ∀ before o rest c timeout, drainHistory = before ++ o :: rest →
      (∃ o' ∈ before ++ [o], o'.event = .wait c timeout) → .returned c (.idle true) ∈ o.effects →
        drainedState.current = none ∧ drainedState.runs = []) :=
  ⟨⟨reachable_inFlight, leads_drainedState, rfl⟩,
    reachable_inFlight.stop_barrier rfl (.tail _ (.head _)) leads_drainedState⟩

end Foreman.Executor

import Foreman.Proofs.Executor.Barrier

namespace Foreman.Executor

variable {s s' : State} {past late : List Occurrence} {o : Occurrence}

def Event.millis : Event → Nat
  | .elapsed m => m
  | _ => 0

/-- The time that goes by in a history, in milliseconds. -/
def millis (past : List Occurrence) : Nat := past.foldl (fun n o => n + o.event.millis) 0

theorem millis_concat (past : List Occurrence) (o : Occurrence) :
    millis (past ++ [o]) = millis past + o.event.millis :=
  List.foldl_append ..

theorem Transition.now (ht : Transition u s e s' effects) : s'.now = s.now + e.millis := by
  cases ht <;> rfl

/-- Whether a run has begun that has not ended. -/
def Engaged (past : List Occurrence) : Prop :=
  ∃ before o rest, past = before ++ o :: rest ∧ (∃ n, .beginRun n ∈ o.effects) ∧
    ∀ o' ∈ rest, ∀ n, o'.event ≠ .finished n

theorem Engaged.of_last (begun : .beginRun n ∈ o.effects) : Engaged (past ++ [o]) :=
  ⟨past, o, [], rfl, ⟨n, begun⟩, fun _ hm => (List.not_mem_nil hm).elim⟩

theorem Engaged.concat (h : Engaged past) (unfinished : ∀ n, o.event ≠ .finished n) :
    Engaged (past ++ [o]) := by
  obtain ⟨before, o', rest, rfl, begun, live⟩ := h
  refine ⟨before, o', rest ++ [o], List.append_assoc .., begun, ?_⟩
  exact List.forall_mem_append.2 ⟨live, List.forall_mem_singleton.2 unfinished⟩

theorem Engaged.prepend (h : Engaged past) (earlier : List Occurrence) :
    Engaged (earlier ++ past) := by
  obtain ⟨before, o, rest, rfl, begun, live⟩ := h
  exact ⟨earlier ++ before, o, rest, (List.append_assoc ..).symm, begun, live⟩

/-- A task that is in flight after a step was so before, or its run begins with the step. -/
theorem Transition.busy_cases (ht : Transition u s e s' effects) (busy : s'.current.isSome) :
    (∃ n, .beginRun n ∈ effects) ∨ s.current.isSome ∧ ∀ n, e ≠ .finished n := by
  cases ht with
  | checkedOut => exact .inl ⟨_, List.mem_singleton_self _⟩
  | finished => cases busy
  | startBegins | startRefused | prepareFails | requeueSkipped | requeueBegins | requeued
  | launched | stopped | stopRefused | pollEnters | pollTurnsBack | idleSeen | fetchSkipped
  | fetchBegins | nothingTaken | pollLeaves | waitEnds | waitRegisters | woken | lapsed | expired
  | startDropped | pollDropped | waitDropped | replied | elapsed => exact .inr ⟨busy, nofun⟩

theorem Transition.busy_of_begun (ht : Transition u s e s' effects)
    (begun : .beginRun n ∈ effects) : s'.current.isSome := by
  cases ht.cause begun with
  | begins =>
    cases ht with
    | checkedOut => rfl
    | nothingTaken => cases begun

theorem Transition.busy_of_busy (ht : Transition u s e s' effects) (busy : s.current.isSome)
    (unfinished : ∀ n, e ≠ .finished n) : s'.current.isSome := by
  cases ht.work with
  | kept _ current | hears _ _ _ current => rwa [current]
  | takes _ _ _ _ _ current => rw [current]; rfl
  | ends he => exact absurd he (unfinished _)

theorem Leads.busy_of_engaged (h : Leads u s past s') (engaged : Engaged past) :
    s'.current.isSome := by
  obtain ⟨before, o, rest, rfl, ⟨n, begun⟩, live⟩ := engaged
  obtain ⟨t, t', -, ht, hr⟩ := h.at_step
  refine hr.keeps_past
    (P := fun past s => (∀ o ∈ past, ∀ n, o.event ≠ .finished n) → s.current.isSome)
    (fun busy ht live => ?_) (fun _ => ht.busy_of_begun begun) live
  obtain ⟨earlier, last⟩ := List.forall_mem_append.1 live
  exact ht.busy_of_busy (busy earlier) (List.forall_mem_singleton.1 last)

/-- Since the latest wait of a caller, `late` has happened. -/
def LastWait (c timeout : Nat) (past late : List Occurrence) : Prop :=
  ∃ before o, past = before ++ o :: late ∧ o.event = .wait c timeout ∧
    ∀ o' ∈ late, ∀ timeout', o'.event ≠ .wait c timeout'

theorem LastWait.concat (h : LastWait c timeout past late)
    (other : ∀ timeout', o.event ≠ .wait c timeout') :
    LastWait c timeout (past ++ [o]) (late ++ [o]) := by
  obtain ⟨before, o', rfl, he, none⟩ := h
  refine ⟨before, o', List.append_assoc .., he, ?_⟩
  exact List.forall_mem_append.2 ⟨none, List.forall_mem_singleton.2 other⟩

theorem LastWait.of_last (he : o.event = .wait c timeout) : LastWait c timeout (past ++ [o]) [] :=
  ⟨past, o, rfl, he, fun _ hm => (List.not_mem_nil hm).elim⟩

theorem Transition.not_wait (ht : Transition u s e s' effects) (hc : s.call? c = some k)
    (timeout : Nat) : e ≠ .wait c timeout := by
  rintro rfl
  rw [ht.free_of_wait] at hc
  cases hc

/-- A wait that does not end at once is registered. -/
theorem Transition.registers (ht : Transition u s (.wait c timeout) s' effects)
    (hc : s'.call? c = some k) : s'.waiters = s.waiters.register.2 := by
  cases ht with
  | waitEnds free =>
    rw [free] at hc
    cases hc
  | waitRegisters => rfl

/-- What the waits under way have lived through. -/
structure Waited (past : List Occurrence) (s : State) : Prop where
  waiting : s.call? c = some (.waiting w deadline) →
    ∃ timeout late, LastWait c timeout past late ∧ deadline + millis late = s.now + timeout ∧
      (s.waiters.receiver w = .resolved → s.current.isSome → Engaged late)
  lapsed : s.call? c = some (.lapsed w) →
    ∃ timeout late, LastWait c timeout past late ∧ timeout ≤ millis late

theorem Waited.step (h : Waited past s) (ht : Transition u s e s' effects) :
    Waited (past ++ [⟨e, effects⟩]) s' where
  waiting {c w deadline} hc := by
    rcases ht.entry hc with before | entry
    · obtain ⟨timeout, late, last, due, told⟩ := h.waiting before
      refine ⟨timeout, late ++ [⟨e, effects⟩], last.concat (ht.not_wait before), ?_, ?_⟩
      · rw [ht.now, millis_concat, ← Nat.add_assoc, due, Nat.add_right_comm]
      · intro hw busy
        -- Nothing is in flight when a waiter is told, so that what is in flight has begun since.
        rcases ht.audience.told hw with earlier | idle
        · rcases ht.busy_cases busy with ⟨n, begun⟩ | ⟨busy, unfinished⟩
          · exact .of_last begun
          · exact (told earlier busy).concat unfinished
        · rw [idle] at busy
          cases busy
    · cases entry with
      | @waiting c timeout =>
        refine ⟨timeout, [], .of_last rfl, by rw [ht.now]; rfl, fun hw => ?_⟩
        rw [ht.registers hc, IdleRegistry.receiver_register, if_pos rfl] at hw
        cases hw
  lapsed {c w} hc := by
    rcases ht.entry hc with before | entry
    · obtain ⟨timeout, late, last, passed⟩ := h.lapsed before
      refine ⟨timeout, late ++ [⟨e, effects⟩], last.concat (ht.not_wait before), ?_⟩
      rw [millis_concat]
      exact Nat.le_add_right_of_le passed
    · cases entry
      cases ht with
      | lapsed before reached =>
        obtain ⟨timeout, late, last, due, -⟩ := h.waiting before
        have passed : timeout ≤ millis late := by omega
        refine ⟨timeout, late ++ [_], last.concat nofun, ?_⟩
        rw [millis_concat]
        exact Nat.le_add_right_of_le passed

theorem Leads.waited (h : Leads u .initial past s) : Waited past s :=
  h.keeps_past Waited.step ⟨nofun, nofun⟩

def Call.waiter? : Call → Option Nat
  | waiting w _ | lapsed w => some w
  | _ => none

/-- Whether a call is a wait that was registered under an id. -/
def State.Holds (s : State) (c w : Nat) : Prop := ∃ k, s.call? c = some k ∧ k.waiter? = some w

theorem Transition.holds (ht : Transition u s e s' effects) (h : s'.Holds c w) :
    s.Holds c w ∨ (∃ timeout, e = .wait c timeout) ∧ w = s.waiters.receivers.length ∧
      s'.waiters = s.waiters.register.2 := by
  obtain ⟨k, hc, hk⟩ := h
  rcases ht.entry hc with before | entry
  · exact .inl ⟨k, before, hk⟩
  · cases entry with
    | waiting =>
      cases hk
      exact .inr ⟨⟨_, rfl⟩, rfl, ht.registers hc⟩
    | lapsed =>
      cases hk
      cases ht with
      | lapsed before =>
        cases (State.call?_changeCall_self ..).symm.trans hc
        exact .inl ⟨_, before, rfl⟩
    | preparing | launching | requeueing | looking | asking | fetching | leaving => cases hk

/-- What a waiter has seen is changed by steps of its own wait, and when everyone is told. -/
theorem Transition.receiver_cases (ht : Transition u s e s' effects)
    (kept : ∀ c, s.Holds c w → ∃ deadline, s'.call? c = some (.waiting w deadline)) :
    s'.waiters.receiver w = s.waiters.receiver w ∨ s'.waiters.receiver w = .waiting ∨
      s'.waiters.receiver w = IdleRegistry.resolveReceiver (s.waiters.receiver w) := by
  have apart {c w' k} (hc : s.call? c = some k) (hk : k.waiter? = some w')
      (gone : ∀ deadline, s'.call? c ≠ some (.waiting w deadline)) : w ≠ w' := by
    rintro rfl
    obtain ⟨deadline, hc'⟩ := kept c ⟨k, hc, hk⟩
    exact gone deadline hc'
  have ended {c k} : (s.endCall c).call? c ≠ some k := by
    rw [State.call?_endCall_self]
    nofun
  cases ht with
  | waitRegisters =>
    by_cases new : w = s.waiters.receivers.length <;>
      simp [State.beginCall, IdleRegistry.receiver_register, new]
  | woken hc =>
    have other := apart hc rfl fun _ => ended
    exact .inl (by simp [IdleRegistry.receiver_look, other])
  | lapsed hc =>
    have other := apart hc rfl fun deadline hc' => by
      cases (State.call?_changeCall_self ..).symm.trans hc'
    exact .inl (by simp [IdleRegistry.receiver_drop, other])
  | expired hc =>
    have other := apart hc rfl fun _ => ended
    exact .inl (by simp [IdleRegistry.receiver_cancel, other])
  | waitDropped hc =>
    have other := apart hc rfl fun _ => ended
    exact .inl (by simp [IdleRegistry.receiver_drop, other])
  | finished =>
    simp only [State.finish, IdleRegistry.receiver_resolveAll]
    split
    · exact .inr (.inr rfl)
    · exact .inl rfl
  | startBegins | startRefused | prepareFails | requeueSkipped | requeueBegins | requeued
  | launched | stopped | stopRefused | pollEnters | pollTurnsBack | idleSeen | fetchSkipped
  | fetchBegins | checkedOut | nothingTaken | pollLeaves | waitEnds | startDropped | pollDropped
  | replied | elapsed => exact .inl rfl

/-- Every wait has an id of its own, and listens until it hears something or its time is over;
whoever has heard nothing is still to be told. -/
structure Listening (s : State) : Prop where
  registered : s.Holds c w → w < s.waiters.receivers.length
  own : s.Holds c w → s.Holds d w → c = d
  heard : s.call? c = some (.waiting w deadline) →
    s.waiters.receiver w = .waiting ∨ s.waiters.receiver w = .resolved
  pending : s.waiters.receiver w = .waiting → w ∈ s.waiters.pending

theorem Audience.pending (h : Audience s s')
    (before : ∀ {w}, s.waiters.receiver w = .waiting → w ∈ s.waiters.pending)
    (waits : s'.waiters.receiver w = .waiting) : w ∈ s'.waiters.pending := by
  cases h with
  | kept same =>
    rw [same] at waits ⊢
    exact before waits
  | registers _ waiters =>
    rw [waiters, IdleRegistry.receiver_register] at waits
    rw [waiters]
    split at waits
    · rename_i new
      rw [new]
      exact List.mem_append_right _ (List.mem_singleton_self _)
    · exact List.mem_append_left _ (before waits)
  | looks waiters =>
    rw [waiters, IdleRegistry.receiver_look] at waits
    rw [waiters, IdleRegistry.pending_look]
    split at waits
    · cases waits
    · exact before waits
  | drops waiters =>
    rw [waiters, IdleRegistry.receiver_drop] at waits
    rw [waiters, IdleRegistry.pending_drop]
    split at waits
    · cases waits
    · exact before waits
  | @cancels w' waiters =>
    rw [waiters, IdleRegistry.receiver_cancel] at waits
    rw [waiters, IdleRegistry.pending_cancel]
    split at waits
    · cases hr : s.waiters.receiver w <;> simp [hr, IdleRegistry.closeReceiver] at waits
    · rename_i other
      have mem := before waits
      have ne : w ≠ w' := fun same => other ⟨same, same ▸ mem⟩
      exact (List.mem_erase_of_ne ne).2 mem
  | tells _ waiters =>
    rw [waiters, IdleRegistry.receiver_resolveAll] at waits
    split at waits
    · cases hr : s.waiters.receiver w <;> simp [hr, IdleRegistry.resolveReceiver] at waits
    · rename_i absent
      exact absurd (before waits) absent

theorem Listening.step (h : Listening s) (ht : Transition u s e s' effects) : Listening s' where
  registered {c w} hold := by
    rcases ht.holds hold with before | ⟨-, rfl, waiters⟩
    · exact Nat.lt_of_lt_of_le (h.registered before) ht.audience.registered
    · simp [waiters, IdleRegistry.register]
  own {c w d} hc hd := by
    rcases ht.holds hc with hc | ⟨⟨_, he⟩, hw, -⟩ <;>
      rcases ht.holds hd with hd | ⟨⟨_, he'⟩, hw', -⟩
    · exact h.own hc hd
    · exact absurd (h.registered hc) (hw' ▸ Nat.lt_irrefl _)
    · exact absurd (h.registered hd) (hw ▸ Nat.lt_irrefl _)
    · cases he.symm.trans he'
      rfl
  heard {c w deadline} hc := by
    rcases ht.entry hc with before | entry
    · have kept : ∀ d, s.Holds d w → ∃ deadline, s'.call? d = some (.waiting w deadline) := by
        intro d hd
        rw [h.own hd ⟨_, before, rfl⟩]
        exact ⟨deadline, hc⟩
      rcases ht.receiver_cases kept with same | waits | told
      · rw [same]
        exact h.heard before
      · exact .inl waits
      · right
        rw [told]
        rcases h.heard before with waits | resolved
        · rw [waits]
          rfl
        · rw [resolved]
          rfl
    · cases entry
      left
      rw [ht.registers hc, IdleRegistry.receiver_register, if_pos rfl]
  pending := ht.audience.pending h.pending

theorem not_holds_initial : ¬ State.initial.Holds c w := by
  rintro ⟨k, hc, -⟩
  cases hc

theorem Reachable.listening (h : Reachable u s) : Listening s :=
  h.keeps Listening.step
    ⟨fun hold => absurd hold not_holds_initial, fun hold => absurd hold not_holds_initial,
      nofun, nofun⟩

/-- What the answer of a wait is worth in the state in which it returns, when `late` has happened
since it was called. -/
structure WaitAnswer (o : Occurrence) (c timeout : Nat) (late : List Occurrence) (v : Bool)
    (s : State) : Prop where
  no_after_timeout : v = false → timeout ≤ millis late
  yes_of_idle : s.current = none → v = true
  /-- A yes is stale exactly if a run has begun since the call and is still live. -/
  stale_iff : v = true → (s.current.isSome ↔ Engaged late)
  woken_of_stale : v = true → s.current.isSome → o.event = .woken c

/-- How the waits of a history have been answered, and how those go on that are under way. -/
structure Waits (u : Setup) (past : List Occurrence) (s : State) : Prop where
  answers : ∀ before o rest c v, past = before ++ o :: rest → .returned c (.idle v) ∈ o.effects →
    ∃ timeout late t, LastWait c timeout (before ++ [o]) late ∧
      Leads u .initial (before ++ [o]) t ∧ Leads u t rest s ∧ WaitAnswer o c timeout late v t
  at_once : ∀ c timeout, s.call? c = none → s.current = none →
    s.step? u (.wait c timeout) = some (s, [.returned c (.idle true)])
  /-- A wait has been told of idleness, or a task is in flight and its end will be told. -/
  goes_on : ∀ c w deadline, s.call? c = some (.waiting w deadline) →
    (∃ s', s.step? u (.woken c) = some (s', [.returned c (.idle true)])) ∨
      s.current.isSome ∧ s.waiters.receiver w = .waiting ∧ w ∈ s.waiters.pending ∧
        (deadline ≤ s.now → ∃ s', s.step? u (.lapsed c) = some (s', []) ∧
          s'.call? c = some (.lapsed w))
  expires : ∀ c w, s.call? c = some (.lapsed w) →
    ∃ s', s.step? u (.expired c) = some (s', [.returned c (.idle s.current.isNone)])

theorem Leads.busy_of_lastWait (h : Leads u s past s') (last : LastWait c timeout past late)
    (engaged : Engaged late) : s'.current.isSome := by
  obtain ⟨before, o, rfl, -⟩ := last
  rw [List.append_cons] at h
  exact h.busy_of_engaged (engaged.prepend _)

/-- An answer that is read off the state is right. -/
theorem WaitAnswer.of_current (answered : v = s.current.isNone)
    (passed : v = false → timeout ≤ millis late) (live : Engaged late → s.current.isSome) :
    WaitAnswer o c timeout late v s where
  no_after_timeout := passed
  yes_of_idle idle := by rw [answered, idle]; rfl
  stale_iff yes := by
    have idle : s.current = none := by simpa [yes] using answered
    simpa [idle] using live
  woken_of_stale yes busy := by
    have idle : s.current = none := by simpa [yes] using answered
    simp [idle] at busy

theorem Leads.wait_answer (h : Leads u .initial (past ++ [o]) s)
    (answer : .returned c (.idle v) ∈ o.effects) :
    ∃ timeout late, LastWait c timeout (past ++ [o]) late ∧ WaitAnswer o c timeout late v s := by
  obtain ⟨e, effects⟩ := o
  obtain ⟨s₀, hb, ht⟩ := h.at_last
  have same := ht.current_of_answer answer
  cases ht.cause answer with
  | @findsIdle _ timeout idle =>
    have last : LastWait c timeout (past ++ [⟨.wait c timeout, effects⟩]) [] := .of_last rfl
    refine ⟨timeout, [], last, .of_current ?_ nofun (h.busy_of_lastWait last)⟩
    rw [same, idle]
    rfl
  | wakes hc told =>
    obtain ⟨timeout, late, last, -, stale⟩ := hb.waited.waiting hc
    have last := last.concat (o := ⟨.woken c, effects⟩) nofun
    exact ⟨timeout, _, last, {
      no_after_timeout := nofun
      yes_of_idle := fun _ => rfl
      stale_iff := fun _ =>
        ⟨fun busy => (stale told (same ▸ busy)).concat nofun, h.busy_of_lastWait last⟩
      woken_of_stale := fun _ _ => rfl }⟩
  | expires hc hv =>
    obtain ⟨timeout, late, last, passed⟩ := hb.waited.lapsed hc
    have last := last.concat (o := ⟨.expired c, effects⟩) nofun
    have passed : timeout ≤ millis (late ++ [⟨.expired c, effects⟩]) := by
      rw [millis_concat]
      exact Nat.le_add_right_of_le passed
    have answered : v = s.current.isNone := by rw [hv, same]
    exact ⟨timeout, _, last, .of_current answered (fun _ => passed) (h.busy_of_lastWait last)⟩

/-- Whatever other calls and runs do in between. -/
theorem Leads.waits_answered (h : Leads u .initial past s) : Waits u past s where
  answers before o rest c v split answer := by
    rw [split, List.append_cons] at h
    obtain ⟨t, hb, hr⟩ := h.split
    obtain ⟨timeout, late, last, worth⟩ := hb.wait_answer answer
    exact ⟨timeout, late, t, last, hb, hr, worth⟩
  at_once c timeout free idle := by simp [State.step?, State.wait, free, idle]
  goes_on c w deadline hc := by
    have reach : Reachable u s := ⟨past, h⟩
    rcases reach.listening.heard hc with waits | told
    · right
      have pending := reach.listening.pending waits
      refine ⟨?_, waits, pending, fun late => ?_⟩
      · cases hb : s.current with
        | none =>
          rw [reach.flight.waiters hb] at pending
          cases pending
        | some t => rfl
      · refine ⟨{ s.changeCall c (.lapsed w) with waiters := s.waiters.drop w }, ?_, ?_⟩
        · simp only [State.step?, hc]
          rw [if_pos ⟨late, waits⟩]
          rfl
        · exact State.call?_changeCall_self ..
    · left
      refine ⟨{ s.endCall c with waiters := (s.waiters.look w).2 }, ?_⟩
      simp only [State.step?, hc]
      rw [if_pos told]
      rfl
  expires c w hc := by
    refine ⟨{ s.endCall c with waiters := (s.waiters.cancel w).2 }, ?_⟩
    simp only [State.step?, hc]
    rfl

/-- While a run is live one wait goes on, and the time of another one is over. -/
def lateEvents : List Event :=
  busyEvents ++ [.wait 2 30000, .wait 3 20000, .elapsed 20000, .lapsed 3, .expired 3]

def lateHistory : List Occurrence :=
  ((State.initial.steps? plainSetup lateEvents).getD ([], .initial)).1

def lateState : State :=
  { busyState with waiters := ⟨[0], [.waiting, .dropped]⟩, now := 20000 }

theorem leads_lateState : Leads plainSetup .initial lateHistory lateState :=
  .of_steps? lateEvents rfl

theorem waits_answered_late :
    Leads plainSetup .initial lateHistory lateState ∧ Waits plainSetup lateHistory lateState :=
  ⟨leads_lateState, leads_lateState.waits_answered⟩

def nextTask : Task := { Run.plainTask with id := "t-2", title := "Add logout" }

/-- A waiter is told of a run's end, and before it goes on the next task is checked out. -/
def overtakenWait : List Event :=
  busyEvents ++ [.wait 2 60000, .replied 0 (.written (.panicked .other)),
    .replied 0 (.written (.ok ())), .finished 0, .poll 3, .looked 3, .asked 3,
    .fetched 3 (.ok (some nextTask)), .left 3]

def toldHistory : List Occurrence :=
  ((State.initial.steps? plainSetup overtakenWait).getD ([], .initial)).1

def nextState : State :=
  { inFlight with
    current := some nextTask.ref
    waiters := ⟨[], [.closed]⟩
    runs := [⟨1, nextTask, 0, .marking⟩]
    runCount := 2 }

theorem stale_yes :
    Leads plainSetup .initial (toldHistory ++ [⟨.woken 2, [.returned 2 (.idle true)]⟩]) nextState ∧
      nextState.current = some ⟨"t-2", "Add logout"⟩ :=
  ⟨.of_steps? (overtakenWait ++ [.woken 2]) rfl, rfl⟩

end Foreman.Executor

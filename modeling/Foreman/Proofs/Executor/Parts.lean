import Foreman.Proofs.Executor.Transition

/-!
# The parts of the state

A step changes few parts of the state. For each part there is one account of what a step can do to
it: to the lifecycle, the gate, the calls, the runs and the waiters; and one of what it can ask of
the world. Invariants of a part follow from its account.
-/

namespace Foreman.Executor

namespace State

variable {s s' : State} {p : Call → Bool}

theorem isIdle_iff : s.isIdle = true ↔ s.lifecycle = .running ∧ s.current = none := by
  simp [isIdle]

theorem call?_changeCall_self (s : State) (c : Nat) (k : Call) :
    (s.changeCall c k).call? c = some k :=
  (call?_changeCall ..).trans (if_pos rfl)

theorem call?_endCall_self (s : State) (c : Nat) : (s.endCall c).call? c = none :=
  (call?_endCall ..).trans (if_pos rfl)

theorem of_call?_beginCall (h : (s.beginCall c k').call? d = some k) :
    s.call? d = some k ∨ d = c ∧ k = k' := by
  rw [call?_beginCall] at h
  split at h
  · rename_i hd
    exact .inr ⟨hd, (Option.some.inj h).symm⟩
  · exact .inl h

theorem of_call?_changeCall (h : (s.changeCall c k').call? d = some k) :
    s.call? d = some k ∨ d = c ∧ k = k' := by
  rw [call?_changeCall] at h
  split at h
  · rename_i hd
    exact .inr ⟨hd, (Option.some.inj h).symm⟩
  · exact .inl h

theorem of_call?_endCall (h : (s.endCall c).call? d = some k) : s.call? d = some k := by
  rw [call?_endCall] at h
  split at h
  · cases h
  · exact h

/-- Whether a call is under way and of a kind. -/
def callIs (s : State) (p : Call → Bool) (c : Nat) : Bool := (s.call? c).any p

theorem callIs_of_call? (hc : s.call? c = some k) : s.callIs p c = p k := by
  rw [callIs, hc]
  rfl

theorem callIs_beginCall (s : State) (p : Call → Bool) (c d : Nat) (k : Call) :
    (s.beginCall c k).callIs p d = if d = c then p k else s.callIs p d := by
  unfold callIs
  rw [call?_beginCall]
  split <;> rfl

theorem callIs_changeCall (s : State) (p : Call → Bool) (c d : Nat) (k : Call) :
    (s.changeCall c k).callIs p d = if d = c then p k else s.callIs p d := by
  unfold callIs
  rw [call?_changeCall]
  split <;> rfl

theorem callIs_endCall (s : State) (p : Call → Bool) (c d : Nat) :
    (s.endCall c).callIs p d = if d = c then false else s.callIs p d := by
  unfold callIs
  rw [call?_endCall]
  split <;> rfl

theorem callIs_beginCall_of_not (free : s.call? c = none) (hk : p k = false) (d : Nat) :
    (s.beginCall c k).callIs p d = s.callIs p d := by
  rw [callIs_beginCall]
  split
  · subst d
    rw [hk, callIs, free]
    rfl
  · rfl

theorem callIs_changeCall_of_eq (hc : s.call? c = some k) (hk : p k' = p k) (d : Nat) :
    (s.changeCall c k').callIs p d = s.callIs p d := by
  rw [callIs_changeCall]
  split
  · subst d
    rw [hk, callIs_of_call? hc]
  · rfl

theorem callIs_endCall_of_not (hc : s.call? c = some k) (hk : p k = false) (d : Nat) :
    (s.endCall c).callIs p d = s.callIs p d := by
  rw [callIs_endCall]
  split
  · subst d
    rw [callIs_of_call? hc, hk]
  · rfl

end State

theorem Call.isStart_of_waits (h : k = .preparing ∨ k = .requeueing) : Call.isStart k = true := by
  rcases h with rfl | rfl <;> rfl

/-- The start that a step brings to its end, if it leaves the executor running. -/
def Event.launched? : Event → Option Nat
  | .requeued c _ | .launched c => some c
  | _ => none

/-- What a step does to the lifecycle and to the starts under way. -/
inductive Control (s : State) (e : Event) (s' : State) : Prop where
  | kept (same : s'.lifecycle = s.lifecycle)
      (starts : ∀ d, s'.callIs Call.isStart d = s.callIs Call.isStart d)
  | begins (he : e = .start c) (before : s.lifecycle = .stopped)
      (after : s'.lifecycle = .starting)
      (starts : ∀ d, s'.callIs Call.isStart d = if d = c then true else s.callIs Call.isStart d)
  | fails (hc : s.callIs Call.isStart c = true) (after : s'.lifecycle = .stopped)
      (starts : ∀ d, s'.callIs Call.isStart d = if d = c then false else s.callIs Call.isStart d)
  | launches (he : e.launched? = some c) (hc : s.callIs Call.isStart c = true)
      (after : s'.lifecycle = .running)
      (starts : ∀ d, s'.callIs Call.isStart d = if d = c then false else s.callIs Call.isStart d)
  | stops (he : e = .stop) (before : s.lifecycle = .running) (after : s'.lifecycle = .stopped)
      (starts : ∀ d, s'.callIs Call.isStart d = s.callIs Call.isStart d)

theorem Transition.control (ht : Transition u s e s' effects) : Control s e s' := by
  cases ht with
  | startBegins free hs => exact .begins rfl hs rfl (State.callIs_beginCall _ _ _ · _)
  | prepareFails hc => exact .fails (State.callIs_of_call? hc) rfl (State.callIs_endCall _ _ _ ·)
  | requeued hc | launched hc =>
    exact .launches rfl (State.callIs_of_call? hc) rfl (State.callIs_endCall _ _ _ ·)
  | startDropped hc hk =>
    refine .fails ?_ rfl (State.callIs_endCall _ _ _ ·)
    exact (State.callIs_of_call? hc).trans (Call.isStart_of_waits hk)
  | stopped hs => exact .stops rfl hs rfl fun _ => rfl
  | requeueSkipped hc | requeueBegins hc | idleSeen hc | fetchSkipped hc | fetchBegins hc
  | checkedOut hc | nothingTaken hc | lapsed hc =>
    exact .kept rfl (State.callIs_changeCall_of_eq hc rfl)
  | pollEnters free | waitRegisters free =>
    exact .kept rfl (State.callIs_beginCall_of_not free rfl)
  | pollLeaves hc | woken hc | expired hc | pollDropped hc | waitDropped hc =>
    exact .kept rfl (State.callIs_endCall_of_not hc rfl)
  | startRefused | stopRefused | pollTurnsBack | waitEnds | replied | finished | elapsed =>
    exact .kept rfl fun _ => rfl

/-- What a step does to the gate and to the polls under way. -/
inductive Passage (s : State) (e : Event) (s' : State) : Prop where
  | kept (same : s'.gate = s.gate)
      (polls : ∀ d, s'.callIs Call.isPoll d = s.callIs Call.isPoll d)
  | enters (he : e = .poll c) (before : s.gate = none) (after : s'.gate = some c)
      (polls : ∀ d, s'.callIs Call.isPoll d = if d = c then true else s.callIs Call.isPoll d)
  | leaves (hc : s.callIs Call.isPoll c = true) (after : s'.gate = none)
      (polls : ∀ d, s'.callIs Call.isPoll d = if d = c then false else s.callIs Call.isPoll d)

theorem Transition.passage (ht : Transition u s e s' effects) : Passage s e s' := by
  cases ht with
  | pollEnters free hg => exact .enters rfl hg rfl (State.callIs_beginCall _ _ _ · _)
  | pollLeaves hc | pollDropped hc =>
    exact .leaves (State.callIs_of_call? hc) rfl (State.callIs_endCall _ _ _ ·)
  | requeueSkipped hc | requeueBegins hc | idleSeen hc | fetchSkipped hc | fetchBegins hc
  | checkedOut hc | nothingTaken hc | lapsed hc =>
    exact .kept rfl (State.callIs_changeCall_of_eq hc rfl)
  | startBegins free | waitRegisters free =>
    exact .kept rfl (State.callIs_beginCall_of_not free rfl)
  | prepareFails hc | requeued hc | launched hc | woken hc | expired hc | waitDropped hc =>
    exact .kept rfl (State.callIs_endCall_of_not hc rfl)
  | startDropped hc hk =>
    refine .kept rfl (State.callIs_endCall_of_not hc ?_)
    rcases hk with rfl | rfl <;> rfl
  | startRefused | stopped | stopRefused | pollTurnsBack | waitEnds | replied | finished
  | elapsed => exact .kept rfl fun _ => rfl

/-- How a call has come to where a step leaves it. -/
inductive Entry (s : State) : Event → Nat → Call → Prop where
  | preparing : Entry s (.start c) c .preparing
  | launching : Entry s (.prepared c a) c .launching
  | requeueing (idle : s.current = none) : Entry s (.prepared c a) c .requeueing
  | looking : Entry s (.poll c) c .looking
  | asking (idle : s.isIdle = true) : Entry s (.looked c) c .asking
  | fetching (hc : s.call? c = some .asking) : Entry s (.asked c) c .fetching
  | leaving : Entry s e c (.leaving panicked)
  | waiting (busy : s.current ≠ none) :
      Entry s (.wait c timeout) c (.waiting s.waiters.receivers.length (s.now + timeout))
  | lapsed : Entry s (.lapsed c) c (.lapsed w)

theorem Transition.entry (ht : Transition u s e s' effects) (h : s'.call? d = some k) :
    s.call? d = some k ∨ Entry s e d k := by
  cases ht with
  | startBegins =>
    rcases State.of_call?_beginCall h with old | ⟨rfl, rfl⟩
    · exact .inl old
    · exact .inr .preparing
  | requeueSkipped =>
    rcases State.of_call?_changeCall h with old | ⟨rfl, rfl⟩
    · exact .inl old
    · exact .inr .launching
  | requeueBegins hc idle =>
    rcases State.of_call?_changeCall h with old | ⟨rfl, rfl⟩
    · exact .inl old
    · exact .inr (.requeueing idle)
  | pollEnters =>
    rcases State.of_call?_beginCall h with old | ⟨rfl, rfl⟩
    · exact .inl old
    · exact .inr .looking
  | idleSeen hc idle =>
    rcases State.of_call?_changeCall h with old | ⟨rfl, rfl⟩
    · exact .inl old
    · exact .inr (.asking idle)
  | fetchBegins hc =>
    rcases State.of_call?_changeCall h with old | ⟨rfl, rfl⟩
    · exact .inl old
    · exact .inr (.fetching hc)
  | fetchSkipped | checkedOut | nothingTaken =>
    rcases State.of_call?_changeCall h with old | ⟨rfl, rfl⟩
    · exact .inl old
    · exact .inr .leaving
  | waitRegisters free busy =>
    rcases State.of_call?_beginCall h with old | ⟨rfl, rfl⟩
    · exact .inl old
    · exact .inr (.waiting busy)
  | lapsed =>
    rcases State.of_call?_changeCall h with old | ⟨rfl, rfl⟩
    · exact .inl old
    · exact .inr .lapsed
  | prepareFails | requeued | launched | pollLeaves | woken | expired | startDropped
  | pollDropped | waitDropped => exact .inl (State.of_call?_endCall h)
  | startRefused | stopped | stopRefused | pollTurnsBack | waitEnds | replied | finished
  | elapsed => exact .inl h

/-- A run after an event. -/
def LiveRun.hears (u : Setup) (r : LiveRun) : Event → LiveRun
  | .replied n reply =>
    if n = r.number then { r with stage := (r.stage.next u.policy r.task reply).1 } else r
  | _ => r

@[simp] theorem LiveRun.number_hears (r : LiveRun) : (r.hears u e).number = r.number := by
  unfold hears
  split
  · split <;> rfl
  · rfl

@[simp] theorem LiveRun.task_hears (r : LiveRun) : (r.hears u e).task = r.task := by
  unfold hears
  split
  · split <;> rfl
  · rfl

/-- What a step does to the runs and the task in flight. -/
inductive Work (u : Setup) (s : State) (e : Event) (s' : State) : Prop where
  | kept (runs : s'.runs = s.runs) (current : s'.current = s.current)
      (silent : ∀ r : LiveRun, r.hears u e = r)
  | takes (he : e = .fetched c (.ok (some t))) (idle : s.isIdle = true)
      (before : s.call? c = some .fetching) (after : s'.call? c = some (.leaving false))
      (runs : s'.runs = s.runs ++ [⟨s.runCount, t, session, .marking⟩])
      (current : s'.current = some t.ref)
  | hears (he : e = .replied n reply) (hr : s.run? n = some r)
      (runs : s'.runs = (s.setStage r.number (r.stage.next u.policy r.task reply).1).runs)
      (current : s'.current = s.current)
  | ends (he : e = .finished n) (hr : s.run? n = some r) (ended : r.stage.isOver = true)
      (hs : s' = (s.finish n).1)

theorem Transition.work (ht : Transition u s e s' effects) : Work u s e s' := by
  cases ht with
  | @checkedOut c session t hc idle hn =>
    refine .takes rfl idle hc ?_ rfl rfl
    exact State.call?_changeCall_self ..
  | replied hr => exact .hears rfl hr rfl rfl
  | finished hr ended => exact .ends rfl hr ended rfl
  | startBegins | startRefused | prepareFails | requeueSkipped | requeueBegins | requeued
  | launched | stopped | stopRefused | pollEnters | pollTurnsBack | idleSeen | fetchSkipped
  | fetchBegins | nothingTaken | pollLeaves | waitEnds | waitRegisters | woken | lapsed | expired
  | startDropped | pollDropped | waitDropped | elapsed => exact .kept rfl rfl fun _ => rfl

/-- What a step does to the waiters. -/
inductive Audience (s s' : State) : Prop where
  | kept (same : s'.waiters = s.waiters)
  | registers (busy : s.current ≠ none) (waiters : s'.waiters = s.waiters.register.2)
  | looks (waiters : s'.waiters = (s.waiters.look w).2)
  | drops (waiters : s'.waiters = s.waiters.drop w)
  | cancels (waiters : s'.waiters = (s.waiters.cancel w).2)
  | tells (idle : s'.current = none) (waiters : s'.waiters = s.waiters.resolveAll.2)

theorem Transition.audience (ht : Transition u s e s' effects) : Audience s s' := by
  cases ht with
  | waitRegisters free busy => exact .registers busy rfl
  | woken => exact .looks rfl
  | lapsed | waitDropped => exact .drops rfl
  | expired => exact .cancels rfl
  | finished => exact .tells rfl rfl
  | startBegins | startRefused | prepareFails | requeueSkipped | requeueBegins | requeued
  | launched | stopped | stopRefused | pollEnters | pollTurnsBack | idleSeen | fetchSkipped
  | fetchBegins | checkedOut | nothingTaken | pollLeaves | waitEnds | startDropped | pollDropped
  | replied | elapsed => exact .kept rfl

/-- The call that takes a step of its own in an event. -/
def Event.caller? : Event → Option Nat
  | .start c | .prepared c _ | .requeued c _ | .launched c | .poll c | .looked c | .asked c
  | .fetched c _ | .left c | .wait c _ | .woken c | .lapsed c | .expired c | .dropped c => some c
  | .stop | .replied .. | .finished _ | .elapsed _ => none

/-- A call is not moved by anyone else. -/
theorem Transition.call?_other (ht : Transition u s e s' effects) (he : e.caller? ≠ some c) :
    s'.call? c = s.call? c := by
  have other {d : Nat} (hd : e.caller? = some d) : c ≠ d := by
    rintro rfl
    exact he hd
  cases ht with
  | startBegins | pollEnters | waitRegisters =>
    exact (State.call?_beginCall ..).trans (if_neg (other rfl))
  | requeueSkipped | requeueBegins | idleSeen | fetchSkipped | fetchBegins | checkedOut
  | nothingTaken | lapsed =>
    exact (State.call?_changeCall ..).trans (if_neg (other rfl))
  | prepareFails | requeued | launched | pollLeaves | woken | expired | startDropped | pollDropped
  | waitDropped =>
    exact (State.call?_endCall ..).trans (if_neg (other rfl))
  | startRefused | stopped | stopRefused | pollTurnsBack | waitEnds | replied | finished
  | elapsed => rfl

theorem Transition.call?_kept (ht : Transition u s e s' effects) (hc : s.call? c = some k)
    (he : e.caller? ≠ some c) : s'.call? c = some k :=
  (ht.call?_other he).trans hc

/-- What a step asks of the world, and in which states it does. -/
inductive Cause (u : Setup) (s s' : State) : Event → Effect → Prop where
  | prepares (hs : s.lifecycle = .stopped) : Cause u s s' (.start c) (.prepare c)
  | requeues (idle : s.current = none) (after : s'.call? c = some .requeueing) :
      Cause u s s' (.prepared c (.ok ())) (.requeue c)
  | fetches (hc : s.call? c = some .asking) : Cause u s s' (.asked c) (.fetch c)
  | opens (he : e.launched? = some c) (hn : n = s.sessions) : Cause u s s' e (.openSession n)
  | closes (hp : s.poller = some n) : Cause u s s' .stop (.closePoller n)
  | begins (idle : s.isIdle = true) (hn : n = s.runCount) :
      Cause u s s' (.fetched c (.ok (some t))) (.beginRun n)
  | notifies (hr : s.run? n = some r) (hs : session = r.session)
      (ht : texts = (r.stage.next u.policy r.task reply).2) :
      Cause u s s' (.replied n reply) (.queueNotices session texts)
  | ends (hr : s.run? n = some r) (ended : r.stage.isOver = true) :
      Cause u s s' (.finished n) (.endRun n)
  | stops (hs : s.lifecycle = .running) (hm : m = stoppedMessage s.current) :
      Cause u s s' .stop (.stopped (.ok m))
  | refusesStop (hs : s.lifecycle ≠ .running) :
      Cause u s s' .stop (.stopped (.error .notRunning))
  | refusesStart (hs : s.lifecycle ≠ .stopped) :
      Cause u s s' (.start c) (.returned c (.started (.error .alreadyRunning)))
  | failsStart (hm : m = u.policy.redactor.redact f.full) :
      Cause u s s' (.prepared c (.error f)) (.returned c (.started (.error (.environment m))))
  | launches (he : e.launched? = some c) (hm : m = startedMessage u) :
      Cause u s s' e (.returned c (.started (.ok m)))
  | turnsBack (hg : s.gate ≠ none) : Cause u s s' (.poll c) (.returned c .polled)
  | leaves (hc : s.call? c = some (.leaving false)) :
      Cause u s s' (.left c) (.returned c .polled)
  | unwinds (hc : s.call? c = some (.leaving true)) :
      Cause u s s' (.left c) (.returned c .pollPanicked)
  | findsIdle (idle : s.current = none) :
      Cause u s s' (.wait c timeout) (.returned c (.idle true))
  | wakes (hc : s.call? c = some (.waiting w deadline)) (told : s.waiters.receiver w = .resolved) :
      Cause u s s' (.woken c) (.returned c (.idle true))
  | expires (hc : s.call? c = some (.lapsed w)) (hv : v = s.current.isNone) :
      Cause u s s' (.expired c) (.returned c (.idle v))

theorem Transition.cause (ht : Transition u s e s' effects) (h : x ∈ effects) :
    Cause u s s' e x := by
  cases ht with
  | startBegins free hs =>
    cases List.mem_singleton.1 h
    exact .prepares hs
  | startRefused free hs =>
    cases List.mem_singleton.1 h
    exact .refusesStart hs
  | prepareFails hc =>
    cases List.mem_singleton.1 h
    exact .failsStart rfl
  | requeueBegins hc idle =>
    cases List.mem_singleton.1 h
    exact .requeues idle (State.call?_changeCall_self ..)
  | requeued hc | launched hc =>
    rcases List.mem_cons.1 h with rfl | h
    · exact .opens rfl rfl
    · cases List.mem_singleton.1 h
      exact .launches rfl rfl
  | stopped hs =>
    rcases List.mem_append.1 h with h | h
    · obtain ⟨n, hn, rfl⟩ := Option.map_eq_some_iff.1 (Option.mem_toList.1 h)
      exact .closes hn
    · cases List.mem_singleton.1 h
      exact .stops hs rfl
  | stopRefused hs =>
    cases List.mem_singleton.1 h
    exact .refusesStop hs
  | pollTurnsBack free hg =>
    cases List.mem_singleton.1 h
    exact .turnsBack hg
  | fetchBegins hc =>
    cases List.mem_singleton.1 h
    exact .fetches hc
  | checkedOut hc idle hn =>
    cases List.mem_singleton.1 h
    exact .begins idle rfl
  | @pollLeaves c panicked hc =>
    cases List.mem_singleton.1 h
    cases panicked with
    | false => exact .leaves hc
    | true => exact .unwinds hc
  | waitEnds free idle =>
    cases List.mem_singleton.1 h
    exact .findsIdle idle
  | woken hc told =>
    cases List.mem_singleton.1 h
    exact .wakes hc told
  | expired hc =>
    cases List.mem_singleton.1 h
    exact .expires hc rfl
  | replied hr =>
    split at h
    · cases h
    · cases List.mem_singleton.1 h
      exact .notifies hr rfl rfl
  | finished hr ended =>
    cases List.mem_singleton.1 h
    exact .ends hr ended
  | requeueSkipped | pollEnters | idleSeen | fetchSkipped | nothingTaken | waitRegisters | lapsed
  | startDropped | pollDropped | waitDropped | elapsed => cases h

end Foreman.Executor

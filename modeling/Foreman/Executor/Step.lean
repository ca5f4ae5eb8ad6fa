import Foreman.Executor.State
import Foreman.Store.Basic

/-!
# Steps of an executor

A step is one access to what calls and runs share: the state is looked at or changed, or the poll
gate is taken or given back. That a poll asks the store is a step of its own, since it has let go of
the state before. A step is set off by an event: a call is made, answered, dropped or goes
on, a run gets an answer or ends, time goes by. Any order of events that can happen is a history of
the executor, and a step that cannot happen in a state has no result.
-/

namespace Foreman.Executor

/-- What an executor is set up with. -/
structure Setup where
  pollInterval : Span
  noticeCapacity : Nat
  policy : RunPolicy

inductive Event where
  | start (call : Nat)
  /-- The workspace has answered a start. -/
  | prepared (call : Nat) (answer : Except Fault Unit)
  /-- The store has answered a start. -/
  | requeued (call : Nat) (answer : Except StoreError Nat)
  /-- A start that has seen a task in flight goes on. -/
  | launched (call : Nat)
  | stop
  | poll (call : Nat)
  /-- A poll that has taken the gate looks at the state. -/
  | looked (call : Nat)
  /-- A poll that has seen the executor idle asks the store. -/
  | asked (call : Nat)
  /-- The store has answered a poll. -/
  | fetched (call : Nat) (answer : Answer (Option Task))
  /-- A poll gives the gate back. -/
  | left (call : Nat)
  /-- A wait that ends after a number of milliseconds at the latest. -/
  | wait (call : Nat) (timeout : Nat)
  /-- A waiter that was told goes on. -/
  | woken (call : Nat)
  /-- A waiter that was not told stops listening when its time is over. -/
  | lapsed (call : Nat)
  /-- A waiter whose time is over goes on. -/
  | expired (call : Nat)
  /-- A call is given up while it waits. -/
  | dropped (call : Nat)
  /-- A run gets an answer. -/
  | replied (run : Nat) (reply : Run.Reply)
  /-- A run that is over gives its task back. -/
  | finished (run : Nat)
  | elapsed (millis : Nat)

/-- What a call comes to. -/
inductive Return where
  | started (result : Except ControlError String)
  | polled
  /-- The store panicked in the poll. -/
  | pollPanicked
  | idle (yes : Bool)

/-- What a step asks of the world. -/
inductive Effect where
  | prepare (call : Nat)
  | requeue (call : Nat)
  | fetch (call : Nat)
  /-- The poll loop and the notices of a new session. -/
  | openSession (session : Nat)
  | closePoller (session : Nat)
  | beginRun (run : Nat)
  | queueNotices (session : Nat) (texts : List String)
  | endRun (run : Nat)
  | returned (call : Nat) (value : Return)
  | stopped (result : Except ControlError String)

abbrev Outcome := State × List Effect

def startedMessage (u : Setup) : String :=
  s!"Executor started. Polling for tasks every {u.pollInterval.seconds}s."

def stoppedMessage : Option TaskRef → String
  | some t => s!"Executor stopped. Task \"{t.title}\" is still running and will finish."
  | none => "Executor stopped."

namespace State

def start (s : State) (c : Nat) : Outcome :=
  if s.lifecycle = .stopped then
    ({ s with lifecycle := .starting }.beginCall c .preparing, [.prepare c])
  else (s, [.returned c (.started (.error .alreadyRunning))])

/-- The end of a start that succeeds. -/
def launch (s : State) (u : Setup) (c : Nat) : Outcome :=
  ({ s.endCall c with
      lifecycle := .running
      poller := some s.sessions
      notifier := some s.sessions
      sessions := s.sessions + 1 },
    [.openSession s.sessions, .returned c (.started (.ok (startedMessage u)))])

/-- Stranded tasks are put back only when no task is in flight. -/
def prepared (s : State) (u : Setup) (c : Nat) : Except Fault Unit → Outcome
  | .error f =>
    ({ s.endCall c with lifecycle := .stopped },
      [.returned c (.started (.error (.environment (u.policy.redactor.redact f.full))))])
  | .ok () =>
    if s.current.isSome then (s.changeCall c .launching, [])
    else (s.changeCall c .requeueing, [.requeue c])

def stop (s : State) : Outcome :=
  if s.lifecycle = .running then
    ({ s with lifecycle := .stopped, poller := none, notifier := none },
      (s.poller.map .closePoller).toList ++ [.stopped (.ok (stoppedMessage s.current))])
  else (s, [.stopped (.error .notRunning)])

/-- A poll does nothing while another one is under way. -/
def poll (s : State) (c : Nat) : Outcome :=
  if s.gate.isNone then ({ s with gate := some c }.beginCall c .looking, [])
  else (s, [.returned c .polled])

/-- The store is not asked unless the executor is idle. -/
def looked (s : State) (c : Nat) : Outcome :=
  (s.changeCall c (if s.isIdle then .asking else .leaving false), [])

def asked (s : State) (c : Nat) : Outcome := (s.changeCall c .fetching, [.fetch c])

/-- Checks a task out and begins its run. -/
def checkOut (s : State) (t : Task) (session : Nat) : Outcome :=
  ({ s with
      current := some t.ref
      runs := s.runs ++ [⟨s.runCount, t, session, .marking⟩]
      runCount := s.runCount + 1 },
    [.beginRun s.runCount])

/-- A task is left in the queue if the executor is not idle any more. -/
def fetched (s : State) (c : Nat) : Answer (Option Task) → Outcome
  | .ok (some t) =>
    match s.notifier, s.isIdle with
    | some session, true => (s.changeCall c (.leaving false)).checkOut t session
    | _, _ => (s.changeCall c (.leaving false), [])
  | .ok none | .failed _ => (s.changeCall c (.leaving false), [])
  | .panicked _ => (s.changeCall c (.leaving true), [])

/-- The end of a poll. -/
def left (s : State) (c : Nat) (panicked : Bool) : Outcome :=
  ({ s.endCall c with gate := none },
    [.returned c (if panicked then .pollPanicked else .polled)])

def wait (s : State) (c timeout : Nat) : Outcome :=
  if s.current.isNone then (s, [.returned c (.idle true)])
  else
    let (id, waiters) := s.waiters.register
    ({ s with waiters }.beginCall c (.waiting id (s.now + timeout)), [])

def woken (s : State) (c waiter : Nat) : Outcome :=
  ({ s.endCall c with waiters := (s.waiters.look waiter).2 }, [.returned c (.idle true)])

def lapsed (s : State) (c waiter : Nat) : Outcome :=
  ({ s.changeCall c (.lapsed waiter) with waiters := s.waiters.drop waiter }, [])

def expired (s : State) (c waiter : Nat) : Outcome :=
  ({ s.endCall c with waiters := (s.waiters.cancel waiter).2 },
    [.returned c (.idle s.current.isNone)])

/-- A start that is given up leaves the executor stopped, a poll frees the gate, and a waiter does
not listen any more. A call that waits for nothing cannot be given up. -/
def dropped? (s : State) (c : Nat) : Call → Option Outcome
  | .preparing | .requeueing => some ({ s.endCall c with lifecycle := .stopped }, [])
  | .fetching => some ({ s.endCall c with gate := none }, [])
  | .waiting waiter _ => some ({ s.endCall c with waiters := s.waiters.drop waiter }, [])
  | .launching | .looking | .asking | .leaving _ | .lapsed _ => none

/-- Whatever way a run ends, its task is given back and every waiter is told, in one step. -/
def finish (s : State) (n : Nat) : Outcome :=
  ({ s with
      current := none
      waiters := s.waiters.resolveAll.2
      runs := s.runs.filter (·.number ≠ n) },
    [.endRun n])

def replied (s : State) (u : Setup) (r : LiveRun) (reply : Run.Reply) : Outcome :=
  let (stage, notices) := r.stage.next u.policy r.task reply
  (s.setStage r.number stage,
    if notices.isEmpty then [] else [.queueNotices r.session notices])

/-- The state after an event and what it asks of the world, if the event can happen. -/
def step? (u : Setup) (s : State) : Event → Option Outcome
  | .start c => if (s.call? c).isNone then some (s.start c) else none
  | .prepared c a => if s.call? c = some .preparing then some (s.prepared u c a) else none
  | .requeued c _ => if s.call? c = some .requeueing then some (s.launch u c) else none
  | .launched c => if s.call? c = some .launching then some (s.launch u c) else none
  | .stop => some s.stop
  | .poll c => if (s.call? c).isNone then some (s.poll c) else none
  | .looked c => if s.call? c = some .looking then some (s.looked c) else none
  | .asked c => if s.call? c = some .asking then some (s.asked c) else none
  | .fetched c a => if s.call? c = some .fetching then some (s.fetched c a) else none
  | .left c =>
    match s.call? c with
    | some (.leaving panicked) => some (s.left c panicked)
    | _ => none
  | .wait c timeout => if (s.call? c).isNone then some (s.wait c timeout) else none
  | .woken c =>
    match s.call? c with
    | some (.waiting w _) => if s.waiters.receiver w = .resolved then some (s.woken c w) else none
    | _ => none
  | .lapsed c =>
    match s.call? c with
    | some (.waiting w deadline) =>
      if deadline ≤ s.now ∧ s.waiters.receiver w = .waiting then some (s.lapsed c w) else none
    | _ => none
  | .expired c =>
    match s.call? c with
    | some (.lapsed w) => some (s.expired c w)
    | _ => none
  | .dropped c => (s.call? c).bind (s.dropped? c)
  | .replied n reply => (s.run? n).map fun r => s.replied u r reply
  | .finished n =>
    match s.run? n with
    | some r => if r.stage.isOver then some (s.finish n) else none
    | none => none
  | .elapsed millis => some ({ s with now := s.now + millis }, [])

end State

/-- A step that was taken: what set it off, and what it asked of the world. -/
structure Occurrence where
  event : Event
  effects : List Effect

/-- These steps, the first one first, lead from one state to another. -/
inductive Leads (u : Setup) : State → List Occurrence → State → Prop where
  | refl (s : State) : Leads u s [] s
  | head {s s' s'' : State} {e : Event} {effects : List Effect} {rest : List Occurrence} :
      s.step? u e = some (s', effects) → Leads u s' rest s'' →
        Leads u s (⟨e, effects⟩ :: rest) s''

/-- The steps that some events set off one after the other, and where they lead. -/
def State.steps? (u : Setup) : State → List Event → Option (List Occurrence × State)
  | s, [] => some ([], s)
  | s, e :: rest =>
    match s.step? u e with
    | none => none
    | some (s', effects) =>
      (s'.steps? u rest).map fun (history, s'') => (⟨e, effects⟩ :: history, s'')

theorem Leads.of_steps? {u : Setup} {s s' : State} {history : List Occurrence}
    (events : List Event) (h : s.steps? u events = some (history, s')) :
    Leads u s history s' := by
  induction events generalizing s history with
  | nil =>
    cases h
    exact .refl _
  | cons e rest ih =>
    simp only [State.steps?] at h
    split at h
    · cases h
    · rename_i hs
      obtain ⟨_, hr, he⟩ := Option.map_eq_some_iff.1 h
      cases he
      exact .head hs (ih hr)

/-- The states that an executor can come to. -/
def Reachable (u : Setup) (s : State) : Prop := ∃ history, Leads u .initial history s

end Foreman.Executor

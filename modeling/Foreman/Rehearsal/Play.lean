import Foreman.Executor.Step
import Foreman.Notice.Queue
import Foreman.Rehearsal.Cast

/-!
# Plays

A play runs an executor against a cast on a clock of its own. Everything that can go on has a place
in a line: what goes on at once without a suspension comes first, then what is ready, in the order
in which it became so. The clock moves only when nobody is ready, and then to the next moment for
which something is set.
-/

namespace Foreman.Rehearsal

open Executor

/-- Something that goes on when its turn comes. -/
inductive Job where
  | event (e : Event)
  /-- A run asks for what its stage needs. -/
  | ask (run : Nat)
  /-- The agent has passed the gate and gives this answer to a run. -/
  | passed (run : Nat) (outcome : Timed (Answer ChildOutcome))
  /-- The notices of a session are delivered. -/
  | deliver (session : Nat)
  /-- The poll loop of a session looks at its clock. -/
  | tick (session : Nat)

/-- A job that is set for a moment. -/
structure Timer where
  deadline : Nat
  job : Job

/-- A poll loop: when its next poll is due, and the poll that it waits for. -/
structure PollLoop where
  session : Nat
  due : Nat
  call : Option Nat

/-- How a call ended. -/
inductive Ending where
  | returned (value : Return)
  | dropped

/-- What a play is set up with. -/
structure Staging (σ : Type) where
  setup : Setup
  cast : Cast σ

structure Play (σ : Type) where
  executor : State
  world : σ
  urgent : List Job
  ready : List Job
  timers : List Timer
  /-- Releases that no run has used yet. -/
  permits : Nat
  /-- Runs that wait at the gate. -/
  atGate : List (Nat × Timed (Answer ChildOutcome))
  sink : Sink
  /-- The notices of every session. -/
  queues : List NoticeQueue
  loops : List PollLoop
  calls : Nat
  /-- Calls that are to be dropped when they go on the next time. -/
  cancelled : List Nat
  /-- Every call that ended, other than those of the poll loops, with the time; the first one
  first. -/
  ended : List (Nat × Nat × Ending)
  /-- What the last stop was told. -/
  stopped : Option (Except ControlError String)

namespace Play

def begin (world : σ) (sink : Sink) : Play σ where
  executor := .initial
  world
  urgent := []
  ready := []
  timers := []
  permits := 0
  atGate := []
  sink
  queues := []
  loops := []
  calls := 0
  cancelled := []
  ended := []
  stopped := none

def now (p : Play σ) : Nat := p.executor.now

def hurry (p : Play σ) (j : Job) : Play σ := { p with urgent := p.urgent ++ [j] }

def enqueue (p : Play σ) (j : Job) : Play σ := { p with ready := p.ready ++ [j] }

/-- Sets a job for a moment, at once if that is not later than now. -/
def setTimer (p : Play σ) (deadline : Nat) (j : Job) : Play σ :=
  if deadline ≤ p.now then p.hurry j else { p with timers := p.timers ++ [⟨deadline, j⟩] }

def after (p : Play σ) (delay : Nat) (j : Job) : Play σ := p.setTimer (p.now + delay) j

def newCall (p : Play σ) : Nat × Play σ := (p.calls, { p with calls := p.calls + 1 })

def loop? (p : Play σ) (session : Nat) : Option PollLoop := p.loops.find? (·.session == session)

def setLoop (p : Play σ) (l : PollLoop) : Play σ :=
  { p with loops := l :: p.loops.filter (·.session != l.session) }

def removeLoop (p : Play σ) (session : Nat) : Play σ :=
  { p with loops := p.loops.filter (·.session != session) }

/-- Gives a call up. It is dropped when its turn comes. -/
def cancel (p : Play σ) (call : Nat) : Play σ :=
  { p with cancelled := call :: p.cancelled }.enqueue (.event (.dropped call))

/-- How far behind its time a poll loop may be before its rhythm starts anew, in milliseconds. -/
def tardiness : Nat := 5

/-- When a poll loop polls again that polls now. -/
def nextDue (now due period : Nat) : Nat :=
  if due + tardiness < now then now + period else due + period

def period (u : Setup) : Nat := u.pollInterval.nanos / 1000000

/-- A poll loop that is due polls; one without a period ends. -/
def tick (s : Staging σ) (p : Play σ) (session : Nat) : Play σ :=
  match p.loop? session with
  | none => p
  | some l =>
    if period s.setup = 0 then p.removeLoop session
    else
      let (call, p) := p.newCall
      (p.setLoop ⟨session, nextDue p.now l.due (period s.setup), some call⟩).hurry
        (.event (.poll call))

/-- Keeps an ending. A poll loop whose poll has ended waits for the next one instead. -/
def conclude (p : Play σ) (call : Nat) (e : Ending) : Play σ :=
  match p.loops.find? (·.call == some call) with
  | some l => (p.setLoop { l with call := none }).setTimer l.due (.tick l.session)
  | none => { p with ended := p.ended ++ [(call, p.now, e)] }

/-- The calls that wait with a waiter that has been told. -/
def told (e : State) : List Nat :=
  (e.calls.reverse.filter fun (_, c) =>
    match c with
    | .waiting w _ => e.waiters.receiver w = .resolved
    | _ => false).map (·.1)

def perform (s : Staging σ) (p : Play σ) : Effect → Play σ
  | .prepare call =>
    let (a, world) := s.cast.prepare p.world
    { p with world }.after a.delay (.event (.prepared call a.answer))
  | .requeue call =>
    let (a, world) := s.cast.requeue p.world
    { p with world }.hurry (.event (.requeued call a))
  | .fetch call =>
    let (a, world) := s.cast.fetch p.world
    { p with world }.after a.delay (.event (.fetched call a.answer))
  | .openSession session =>
    { p with
      queues := p.queues ++ [NoticeQueue.ofCapacity s.setup.noticeCapacity]
      loops := ⟨session, p.now, none⟩ :: p.loops }.enqueue (.tick session)
  | .closePoller session =>
    match p.loop? session with
    | none => p
    | some l =>
      let p := p.removeLoop session
      match l.call with
      | some call => p.cancel call
      | none => p
  | .beginRun run => p.enqueue (.ask run)
  | .queueNotices session texts =>
    { p with
      queues := p.queues.modify session fun q => q.notifyAll s.setup.policy.redactor texts }.enqueue
        (.deliver session)
  | .endRun _ => (told p.executor).foldl (fun p c => p.enqueue (.event (.woken c))) p
  | .returned call value => p.conclude call (.returned value)
  | .stopped result => { p with stopped := some result }

/-- The call that an event brings on, if that call might be given up meanwhile. -/
def callOf : Event → Option Nat
  | .prepared c _ | .requeued c _ | .fetched c _ | .woken c | .lapsed c => some c
  | _ => none

/-- What becomes of an event: a call that is given up is dropped instead. -/
def heeding (p : Play σ) (e : Event) : Event :=
  match callOf e with
  | some c => if p.cancelled.contains c then .dropped c else e
  | none => e

/-- What follows at once from an event that has happened. -/
def follow (p : Play σ) : Event → Play σ
  | .wait call timeout =>
    if (p.executor.call? call).isSome then p.after timeout (.event (.lapsed call)) else p
  | .dropped call => p.conclude call .dropped
  | .replied run _ =>
    match p.executor.run? run with
    | some r => if r.stage.isOver then p else p.hurry (.ask run)
    | none => p
  | _ => p

/-- The event by which whoever was brought on by an event goes on without a suspension. -/
def onward? (s : State) : Event → Option Event
  | .prepared c _ => if s.call? c = some .launching then some (.launched c) else none
  | .poll c => if s.call? c = some .looking then some (.looked c) else none
  | .looked c | .fetched c _ =>
    match s.call? c with
    | some .asking => some (.asked c)
    | some (.leaving _) => some (.left c)
    | _ => none
  | .lapsed c => some (.expired c)
  | .replied n _ =>
    match s.run? n with
    | some r => if r.stage.isOver then some (.finished n) else none
    | none => none
  | _ => none

/-- Lets an event and at most so many more that follow without a suspension happen, if they can. -/
def happenAll (s : Staging σ) : Nat → Play σ → Event → Play σ
  | 0, p, _ => p
  | n + 1, p, e =>
    match p.executor.step? s.setup e with
    | none => p
    | some (executor, effects) =>
      let p := (effects.foldl (perform s) { p with executor }).follow e
      match onward? p.executor e with
      | none => p
      | some e => happenAll s n p e

/-- Lets an event happen, if it can. The longest stretch without a suspension is that of a poll that
takes the gate, looks, and asks the store or gives the gate back. -/
def happen (s : Staging σ) (p : Play σ) (e : Event) : Play σ := happenAll s 3 p (p.heeding e)

/-- Lets the agent's turn begin, at the gate if it is held there. -/
def work (p : Play σ) (run : Nat) (t : Turn) : Play σ :=
  if t.gated then
    match p.permits with
    | 0 => { p with atGate := p.atGate ++ [(run, t.outcome)] }
    | n + 1 => { p with permits := n }.hurry (.passed run t.outcome)
  else p.hurry (.passed run t.outcome)

/-- Asks for what a run's stage needs. -/
def ask (s : Staging σ) (p : Play σ) (run : Nat) : Play σ :=
  match p.executor.run? run with
  | none => p
  | some r =>
    match r.stage.request? s.setup.policy r.task with
    | none => p
    | some (.write u) =>
      let (a, world) := s.cast.write r.task.id u p.world
      { p with world }.hurry (.event (.replied run (.written a)))
    | some (.work d) =>
      let (t, world) := s.cast.work d p.world
      { p with world }.work run t
    | some (.verify hash) =>
      let (a, world) := s.cast.verify hash p.world
      { p with world }.hurry (.event (.replied run (.verified a)))

def deliver (p : Play σ) (session : Nat) : Play σ :=
  match p.queues[session]? with
  | none => p
  | some q =>
    let (q, sink) := q.drain p.sink
    { p with queues := p.queues.set session q, sink }

def carryOut (s : Staging σ) (p : Play σ) : Job → Play σ
  | .event e => p.happen s e
  | .ask run => p.ask s run
  | .passed run outcome => p.after outcome.delay (.event (.replied run (.worked outcome.answer)))
  | .deliver session => p.deliver session
  | .tick session => tick s p session

/-- Carries out the next job in line, if anything is ready. -/
def step? (s : Staging σ) (p : Play σ) : Option (Play σ) :=
  match p.urgent, p.ready with
  | j :: js, _ => some ({ p with urgent := js }.carryOut s j)
  | [], j :: js => some ({ p with ready := js }.carryOut s j)
  | [], [] => none

/-- Goes on for a number of jobs at most, until all is waiting. -/
def settle (s : Staging σ) : Nat → Play σ → Play σ
  | 0, p => p
  | n + 1, p =>
    match p.step? s with
    | none => p
    | some p => settle s n p

/-- More jobs than anybody waits for. -/
def patience : Nat := 1000000

def rest (s : Staging σ) (p : Play σ) : Play σ := p.settle s patience

/-- The next moment for which something is set. -/
def nextDeadline? (p : Play σ) : Option Nat := (p.timers.map (·.deadline)).min?

/-- Moves the clock; what was set for a moment up to then becomes ready. -/
def moveTo (s : Staging σ) (p : Play σ) (time : Nat) : Play σ :=
  let p := p.happen s (.elapsed (time - p.now))
  let (due, ahead) := p.timers.partition fun t => t.deadline ≤ time
  { p with timers := ahead, ready := p.ready ++ due.map (·.job) }

/-- Lets the clock run up to a moment. -/
def runUntil (s : Staging σ) (time : Nat) : Nat → Play σ → Play σ
  | 0, p => p
  | n + 1, p =>
    let p := p.rest s
    match p.nextDeadline? with
    | some d =>
      if d ≤ time then runUntil s time n (p.moveTo s d) else (p.moveTo s time).rest s
    | none => (p.moveTo s time).rest s

def advance (s : Staging σ) (p : Play σ) (millis : Nat) : Play σ :=
  runUntil s (p.now + millis) patience p

def ending? (p : Play σ) (call : Nat) : Option Ending :=
  (p.ended.find? (·.1 == call)).map (·.2.2)

/-- Lets the clock run until a call has ended, as long as anything is set. -/
def runUntilEnd (s : Staging σ) (call : Nat) : Nat → Play σ → Play σ
  | 0, p => p
  | n + 1, p =>
    let p := p.rest s
    if (p.ending? call).isSome then p
    else
      match p.nextDeadline? with
      | some d => runUntilEnd s call n (p.moveTo s d)
      | none => p

/-- Lets one gated run pass, or the next one that comes to the gate. -/
def release (p : Play σ) : Play σ :=
  match p.atGate with
  | [] => { p with permits := p.permits + 1 }
  | (run, outcome) :: rest => { p with atGate := rest }.enqueue (.passed run outcome)

def releaseSink (p : Play σ) : Play σ :=
  (List.range p.queues.length).foldl (fun p n => p.enqueue (.deliver n))
    { p with sink := p.sink.release }

end Play

end Foreman.Rehearsal

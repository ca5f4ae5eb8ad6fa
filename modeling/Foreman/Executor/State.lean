import Foreman.Idle
import Foreman.Run.Stage

/-!
# The state of an executor

An executor works on one task at a time. Whoever uses it starts it, stops it, tells it to poll, or
waits until it is idle; each such call has a number, and a call that is under way is kept here with
how far it has come.
-/

namespace Foreman.Executor

inductive Lifecycle where
  | stopped
  /-- A start is preparing the environment. -/
  | starting
  | running
deriving DecidableEq, Repr

/-- Why a call to start or stop is refused or fails. -/
inductive ControlError where
  | alreadyRunning
  | notRunning
  | environment (message : String)
deriving DecidableEq, Repr

def ControlError.message : ControlError → String
  | alreadyRunning => "executor is already running"
  | notRunning => "executor is not running"
  | environment m => s!"environment setup failed: {m}"

/-- How far a call has come. -/
inductive Call where
  /-- A start that waits for the workspace. -/
  | preparing
  /-- A start that waits for the store to put stranded tasks back into the queue. -/
  | requeueing
  /-- A start that has seen a task in flight, and is about to end. -/
  | launching
  /-- A poll that has taken the gate, and is about to see whether the executor is idle. -/
  | looking
  /-- A poll that has seen the executor idle, and is about to ask for the oldest queued task. -/
  | asking
  /-- A poll that waits for the oldest queued task. -/
  | fetching
  /-- A poll that is about to give the gate back; whether the store panicked in it. -/
  | leaving (panicked : Bool)
  /-- A wait for idleness or a moment in time, in milliseconds. -/
  | waiting (waiter : Nat) (deadline : Nat)
  /-- A wait whose time is over, and that is about to leave the registry. -/
  | lapsed (waiter : Nat)
deriving DecidableEq, Repr

namespace Call

/-- Whether the call is a start. -/
def isStart : Call → Bool
  | preparing | requeueing | launching => true
  | _ => false

/-- Whether the call is a poll that holds the gate. -/
def isPoll : Call → Bool
  | looking | asking | fetching | leaving _ => true
  | _ => false

end Call

/-- A run whose task the executor has checked out. It is live until it has given the task back. -/
structure LiveRun where
  number : Nat
  task : Task
  /-- The session whose notices it writes. -/
  session : Nat
  stage : Run.Stage

/-- An executor. A session is what lies between a successful start and the stop that follows it;
sessions and runs are counted from zero. -/
structure State where
  lifecycle : Lifecycle
  current : Option TaskRef
  /-- The session whose poll loop is installed. -/
  poller : Option Nat
  /-- The session whose notices are taken. -/
  notifier : Option Nat
  waiters : IdleRegistry
  /-- The poll that is under way. -/
  gate : Option Nat
  calls : List (Nat × Call)
  runs : List LiveRun
  sessions : Nat
  runCount : Nat
  /-- The time, in milliseconds. -/
  now : Nat

namespace State

def initial : State where
  lifecycle := .stopped
  current := none
  poller := none
  notifier := none
  waiters := .empty
  gate := none
  calls := []
  runs := []
  sessions := 0
  runCount := 0
  now := 0

/-- Whether a poll may look for a task. -/
def isIdle (s : State) : Bool := s.lifecycle = .running && s.current.isNone

def call? (s : State) (c : Nat) : Option Call := s.calls.lookup c

def run? (s : State) (n : Nat) : Option LiveRun := s.runs.find? (·.number == n)

def endCall (s : State) (c : Nat) : State := { s with calls := s.calls.filter (·.1 ≠ c) }

def beginCall (s : State) (c : Nat) (what : Call) : State :=
  { s with calls := (c, what) :: s.calls }

def changeCall (s : State) (c : Nat) (what : Call) : State := (s.endCall c).beginCall c what

/-- Puts a run at another stage. -/
def setStage (s : State) (n : Nat) (stage : Run.Stage) : State :=
  { s with runs := s.runs.map fun r => if r.number = n then { r with stage } else r }

theorem call?_endCall (s : State) (c d : Nat) :
    (s.endCall c).call? d = if d = c then none else s.call? d := by
  unfold call? endCall
  generalize s.calls = calls
  induction calls with
  | nil => simp
  | cons a rest ih =>
    obtain ⟨x, k⟩ := a
    by_cases hx : x = c
    · by_cases hd : d = c
      · simpa [hx, hd] using ih
      · have hb : (d == c) = false := beq_false_of_ne hd
        simpa [List.lookup_cons, hx, hd, hb] using ih
    · by_cases hd : d = x
      · simp [hx, hd]
      · have hb : (d == x) = false := beq_false_of_ne hd
        simpa [List.lookup_cons, hx, hb] using ih

theorem call?_beginCall (s : State) (c d : Nat) (k : Call) :
    (s.beginCall c k).call? d = if d = c then some k else s.call? d := by
  by_cases h : d = c
  · simp [call?, beginCall, h]
  · have hb : (d == c) = false := beq_false_of_ne h
    simp [call?, beginCall, List.lookup_cons, h, hb]

theorem call?_changeCall (s : State) (c d : Nat) (k : Call) :
    (s.changeCall c k).call? d = if d = c then some k else s.call? d := by
  rw [changeCall, call?_beginCall, call?_endCall]
  split <;> rfl

end State

/-- What someone who asks for the status is told. -/
structure Status where
  running : Bool
  current : Option TaskRef
deriving DecidableEq, Repr

def State.status (s : State) : Status := ⟨s.lifecycle = .running, s.current⟩

end Foreman.Executor

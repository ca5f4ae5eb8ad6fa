import Foreman.Redaction.Basic

/-!
# Notices

Notices wait in a bounded queue for a background task that hands them to a sink one after another.
Whoever queues a notice never waits: a notice that finds the queue full is lost.
-/

namespace Foreman

/-- Where notices go. -/
structure Sink where
  /-- Whether it holds every delivery back. -/
  blocked : Bool
  /-- How many of the next deliveries fail. -/
  failures : Nat
  delivered : List String
deriving DecidableEq, Repr

namespace Sink

/-- The sink after an attempt to deliver. -/
def attempt (s : Sink) (text : String) : Sink :=
  match s.failures with
  | 0 => { s with delivered := s.delivered ++ [text] }
  | n + 1 => { s with failures := n }

def release (s : Sink) : Sink := { s with blocked := false }

end Sink

/-- The notices that were accepted: one that is being delivered, and those behind it. -/
structure NoticeQueue where
  capacity : Nat
  delivering : Option String
  queued : List String
deriving DecidableEq, Repr

namespace NoticeQueue

/-- A queue holds at least one notice. -/
def ofCapacity (n : Nat) : NoticeQueue := ⟨max 1 n, none, []⟩

def isFull (q : NoticeQueue) : Bool := q.capacity ≤ q.queued.length

/-- Queues a text, redacted, unless the queue is full. -/
def notify (q : NoticeQueue) (r : Redactor) (text : String) : NoticeQueue :=
  if q.isFull then q else { q with queued := q.queued ++ [r.redact text] }

def notifyAll (q : NoticeQueue) (r : Redactor) (texts : List String) : NoticeQueue :=
  texts.foldl (fun q text => q.notify r text) q

/-- One step of the background task: it takes the next notice, or brings the one it has taken to the
sink. There is none while the sink holds back, or nothing is left to deliver. -/
def step? (q : NoticeQueue) (s : Sink) : Option (NoticeQueue × Sink) :=
  match q.delivering, q.queued with
  | some text, _ =>
    if s.blocked then none else some ({ q with delivering := none }, s.attempt text)
  | none, text :: rest => some ({ q with delivering := some text, queued := rest }, s)
  | none, [] => none

def stepFor : Nat → NoticeQueue → Sink → NoticeQueue × Sink
  | 0, q, s => (q, s)
  | n + 1, q, s =>
    match q.step? s with
    | none => (q, s)
    | some (q, s) => stepFor n q s

/-- Lets the background task run until it waits. Each notice takes two steps. -/
def drain (q : NoticeQueue) (s : Sink) : NoticeQueue × Sink :=
  stepFor (2 * q.queued.length + 2) q s

end NoticeQueue

end Foreman

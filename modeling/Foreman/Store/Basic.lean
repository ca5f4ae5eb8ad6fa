import Foreman.Fault
import Foreman.Task.Book

namespace Foreman

inductive StoreError where
  | notFound (id : String)
  | other (fault : Fault)
deriving DecidableEq, Repr

namespace StoreError

def fault : StoreError → Fault
  | notFound id => .of s!"task {id} not found"
  | other f => f

/-- The outermost reason. -/
def message (e : StoreError) : String := e.fault.outermost

end StoreError

inductive StoreCall where
  /-- The oldest queued task. -/
  | fetch
  | set (id : String) (update : TaskUpdate)
  /-- Puts every task in progress back into the queue. -/
  | requeue
  | insert (draft : TaskDraft)
  | find (id : String)
  /-- All tasks by time of creation. -/
  | list
deriving DecidableEq, Repr

inductive StoreReply where
  | found (task : Option Task)
  | written
  | moved (count : Nat)
  | task (task : Task)
  | tasks (tasks : List Task)
deriving DecidableEq

/-- What a call takes from the world: the time, and an id that no task has yet. -/
structure Occasion where
  now : Instant
  freshId : String

namespace TaskBook

/-- The reply to a call, and the book to keep if the call changes it. -/
def answer (b : TaskBook) (c : StoreCall) (o : Occasion) :
    Except StoreError (StoreReply × Option TaskBook) :=
  match c with
  | .fetch => .ok (.found b.oldestQueued?, none)
  | .set id u =>
    match b.update? id u o.now with
    | some b => .ok (.written, some b)
    | none => .error (.notFound id)
  | .requeue =>
    .ok (.moved b.strandedCount, if 0 < b.strandedCount then some b.requeueStranded else none)
  | .insert d =>
    let t := Task.ofDraft d o.freshId o.now
    .ok (.task t, some (b.insert t))
  | .find id =>
    match b.find? id with
    | some t => .ok (.task t, none)
    | none => .error (.notFound id)
  | .list => .ok (.tasks b.byCreation, none)

/-- A call on a book that is kept in memory. -/
def perform (b : TaskBook) (c : StoreCall) (o : Occasion) :
    Except StoreError StoreReply × TaskBook :=
  match b.answer c o with
  | .ok (r, changed) => (.ok r, changed.getD b)
  | .error e => (.error e, b)

end TaskBook

end Foreman

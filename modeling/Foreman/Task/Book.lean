import Foreman.Task.Basic

/-!
# The task book

All tasks, in the order in which they were inserted. Ids need not be distinct: an operation on an id
means the first task that has it.
-/

namespace Foreman

structure TaskBook where
  tasks : List Task
deriving DecidableEq

namespace TaskBook

def empty : TaskBook := ⟨[]⟩

def find? (b : TaskBook) (id : String) : Option Task := b.tasks.find? (·.id == id)

/-- The one of two tasks that was created earlier; on a tie the first. -/
def earlier (s t : Task) : Task := if t.created.before s.created then t else s

/-- The earliest task of a list, the first of several. -/
def earliest? : List Task → Option Task
  | [] => none
  | t :: ts => some (ts.foldl earlier t)

/-- The queued task that was created first; of several the one inserted first. -/
def oldestQueued? (b : TaskBook) : Option Task :=
  earliest? (b.tasks.filter (·.status = .queued))

/-- Changes the first task with an id, if there is one. -/
def changeFirst? (id : String) (f : Task → Task) : List Task → Option (List Task)
  | [] => none
  | t :: ts => if t.id = id then some (f t :: ts) else (changeFirst? id f ts).map (t :: ·)

def update? (b : TaskBook) (id : String) (u : TaskUpdate) (now : Instant) : Option TaskBook :=
  (changeFirst? id (·.update u now) b.tasks).map TaskBook.mk

/-- Puts every task in progress back into the queue. -/
def requeueStranded (b : TaskBook) : TaskBook := ⟨b.tasks.map Task.requeue⟩

def strandedCount (b : TaskBook) : Nat := b.tasks.countP (·.status = .inProgress)

def insert (b : TaskBook) (t : Task) : TaskBook := ⟨b.tasks ++ [t]⟩

/-- The tasks by time of creation, those with the same time in the order of insertion. -/
def byCreation (b : TaskBook) : List Task :=
  b.tasks.mergeSort fun s t => !t.created.before s.created

end TaskBook

end Foreman

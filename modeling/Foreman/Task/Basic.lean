import Foreman.Decimal.Binary64
import Foreman.Time.Instant

namespace Foreman

inductive Task.Status where
  | backlog
  | queued
  | inProgress
  | stuck
  | done
  | cancelled
deriving DecidableEq, Repr

namespace Task.Status

def all : List Status := [backlog, queued, inProgress, stuck, done, cancelled]

def name : Status → String
  | backlog => "backlog"
  | queued => "queued"
  | inProgress => "in_progress"
  | stuck => "stuck"
  | done => "done"
  | cancelled => "cancelled"

/-- A task that enters one of these statuses is completed. -/
def isTerminal : Status → Bool
  | done | cancelled => true
  | _ => false

def ofName? (s : String) : Option Status := all.find? (·.name == s)

@[simp] theorem ofName?_name (s : Status) : ofName? s.name = some s := by cases s <;> decide

def unknownMessage (s : String) : String := s!"unknown task status '{s}'"

end Task.Status

/-- Tokens that a run of the agent has used. -/
structure TokenUsage where
  input : UInt64
  output : UInt64
  cacheCreation : UInt64
  cacheRead : UInt64
deriving DecidableEq, Repr

/-- What a run of the agent says about itself. -/
structure Metrics where
  turns : Option UInt32
  cost : Option Binary64
  durationMillis : Option UInt64
  usage : Option TokenUsage
deriving DecidableEq, Repr

def Metrics.empty : Metrics := ⟨none, none, none, none⟩

structure Task where
  id : String
  title : String
  description : Option String
  notes : Option String
  area : Option String
  status : Task.Status
  commit : Option String
  metrics : Option Metrics
  created : Instant
  completed : Option Instant
deriving DecidableEq

/-- How a task in work is referred to. -/
structure TaskRef where
  id : String
  title : String
deriving DecidableEq, Repr

def Task.ref (t : Task) : TaskRef := ⟨t.id, t.title⟩

/-- What is given to make a task. It is queued unless it says otherwise. -/
structure TaskDraft where
  title : String
  description : Option String
  notes : Option String
  area : Option String
  status : Option Task.Status
deriving DecidableEq, Repr

/-- What one finished run leaves with its task. -/
structure RunRecord where
  commit : Option String
  metrics : Option Metrics
deriving DecidableEq, Repr

/-- A write to a task: a status, notes unless the old ones stay, and a record unless the old one
stays. -/
structure TaskUpdate where
  status : Task.Status
  notes : Option String
  run : Option RunRecord
deriving DecidableEq, Repr

def TaskUpdate.ofStatus (s : Task.Status) : TaskUpdate := ⟨s, none, none⟩

namespace Task

/-- The task that a draft describes. -/
def ofDraft (d : TaskDraft) (id : String) (now : Instant) : Task where
  id
  title := d.title
  description := d.description
  notes := d.notes
  area := d.area
  status := d.status.getD .queued
  commit := none
  metrics := none
  created := now
  completed := none

/-- A record replaces commit and metrics, also where it has none. -/
def update (t : Task) (u : TaskUpdate) (now : Instant) : Task :=
  { t with
    status := u.status
    notes := u.notes.orElse fun _ => t.notes
    commit := (u.run.map (·.commit)).getD t.commit
    metrics := (u.run.map (·.metrics)).getD t.metrics
    completed := if u.status.isTerminal then some now else none }

/-- A task in progress goes back to the queue; its completion time is not looked at. -/
def requeue (t : Task) : Task := if t.status = .inProgress then { t with status := .queued } else t

end Task

end Foreman

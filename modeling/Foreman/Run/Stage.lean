import Foreman.Directive
import Foreman.Fault
import Foreman.Redaction.Basic
import Foreman.Task.Basic
import Foreman.Verdict

/-!
# Stages of a run

A run marks its task as in progress, lets the agent work on it, has the commit verified and records
the final status. At each stage it waits for one collaborator; `Stage.next` says where an answer
leads and which notices go out. A failure to mark the task, and a panic anywhere, end in a last
write that records the task as stuck.
-/

namespace Foreman

/-- How a run of one task ends. -/
inductive TaskOutcome where
  /-- The agent succeeded; the commit it reports, and whether that is on the remote branch. -/
  | done (commit : Option String) (verified : Bool)
  /-- The agent did not start, failed, or took too long. -/
  | failed (error : String)
  /-- The agent refused the task. -/
  | flagged (reason : String)
  /-- The run itself failed. -/
  | crashed (error : String)
deriving DecidableEq, Repr

def TaskOutcome.finalStatus : TaskOutcome → Task.Status
  | done .. => .done
  | failed _ | flagged _ | crashed _ => .stuck

/-- What all runs share. -/
structure RunPolicy where
  redactor : Redactor
  timeout : Span
  target : PushTarget

namespace Run

inductive Stage where
  /-- The task is being marked as in progress. -/
  | marking
  /-- The agent is at work. -/
  | working
  /-- A commit is being looked for on the remote branch. -/
  | verifying (hash : String) (notes : Option String) (metrics : Option Metrics)
  /-- The final status is being written. -/
  | recording (outcome : TaskOutcome) (update : TaskUpdate) (notice : String)
  /-- The status of a run that crashed is being written. -/
  | burying (error : String)
  | ended (outcome : TaskOutcome)
  /-- The last write panicked, and the panic went on to whoever ran the task. -/
  | unwound (panic : Panic)
deriving DecidableEq

/-- What a run asks of a collaborator. -/
inductive Request where
  | write (update : TaskUpdate)
  | work (directive : String)
  | verify (hash : String)
deriving DecidableEq

/-- What a collaborator answers. -/
inductive Reply where
  | written (answer : Answer Unit)
  | worked (answer : Answer ChildOutcome)
  | verified (answer : Except Panic Bool)

def startedNotice (t : Task) : String := s!"Started task: {t.title}"

def failedNotice (t : Task) (error : String) : String := s!"Task failed: {t.title}\n{error}"

def flaggedNotice (t : Task) (reason : String) : String :=
  s!"Task flagged: {t.title}\nReason: {reason}"

def doneNotice (t : Task) (summary : String) : String := s!"Task done: {t.title}\n{summary}"

def commitSummary (target : PushTarget) (hash : String) (verified : Bool) : String :=
  if verified then s!"Commit {hash} pushed to {target.text}."
  else s!"Commit {hash} could not be verified on {target.text}."

def noCommitSummary : String := "No commit was made."

def stuckUpdate (notes : String) : TaskUpdate := ⟨.stuck, some notes, none⟩

namespace Stage

def isOver : Stage → Bool
  | ended _ | unwound _ => true
  | _ => false

def request? (p : RunPolicy) (t : Task) : Stage → Option Request
  | marking => some (.write (.ofStatus .inProgress))
  | working => some (.work (Directive.text t p.target))
  | verifying hash _ _ => some (.verify hash)
  | recording _ update _ => some (.write update)
  | burying error => some (.write (stuckUpdate error))
  | ended _ | unwound _ => none

/-- The stage after a run has failed as such. -/
def crash (p : RunPolicy) (error : String) : Stage := .burying (p.redactor.redact error)

def afterPanic (p : RunPolicy) (panic : Panic) : Stage :=
  crash p s!"pipeline panicked: {panic.text}"

def afterSuccess (p : RunPolicy) (t : Task) (notes : Option String) (metrics : Option Metrics)
    (commit : Option String) (verified : Bool) (summary : String) : Stage :=
  .recording (.done commit verified)
    ⟨.done, notes.map p.redactor.redact, some ⟨commit, metrics⟩⟩ (doneNotice t summary)

/-- What follows from the verdict on the agent's work. -/
def afterVerdict (p : RunPolicy) (t : Task) : Verdict → Stage
  | .failed error _ =>
    let error := p.redactor.redact error
    .recording (.failed error) (stuckUpdate error) (failedNotice t error)
  | .succeeded _ _ (some reason) _ =>
    let reason := p.redactor.redact reason
    .recording (.flagged reason) (stuckUpdate s!"Flagged: {reason}") (flaggedNotice t reason)
  | .succeeded notes metrics none (some hash) => .verifying hash notes metrics
  | .succeeded notes metrics none none =>
    afterSuccess p t notes metrics none false noCommitSummary

/-- The verdict on what came of asking the agent. -/
def verdict (p : RunPolicy) : Except Fault ChildOutcome → Verdict
  | .ok o => Verdict.ofOutcome o p.timeout
  | .error f => Verdict.ofSpawnError (p.redactor.redact f.full)

/-- The stage that a reply leads to, and the notices to queue. A reply that was not asked for
changes nothing. -/
def next (p : RunPolicy) (t : Task) : Stage → Reply → Stage × List String
  | marking, .written (.ok ()) => (.working, [startedNotice t])
  | marking, .written (.failed f) => (crash p (f.within "mark task in_progress").full, [])
  | marking, .written (.panicked panic) => (afterPanic p panic, [])
  | working, .worked (.ok o) => (afterVerdict p t (verdict p (.ok o)), [])
  | working, .worked (.failed f) => (afterVerdict p t (verdict p (.error f)), [])
  | working, .worked (.panicked panic) => (afterPanic p panic, [])
  | verifying hash notes metrics, .verified (.ok verified) =>
    (afterSuccess p t notes metrics (some hash) verified (commitSummary p.target hash verified), [])
  | verifying _ _ _, .verified (.error panic) => (afterPanic p panic, [])
  | recording _ _ _, .written (.panicked panic) => (afterPanic p panic, [])
  | recording outcome _ notice, .written _ => (.ended outcome, [notice])
  | burying _, .written (.panicked panic) => (.unwound panic, [])
  | burying error, .written _ => (.ended (.crashed error), [failedNotice t error])
  | stage, _ => (stage, [])

end Stage

end Run

end Foreman

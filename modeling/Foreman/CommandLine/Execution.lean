import Foreman.CommandLine.Basic
import Foreman.Settings.File
import Foreman.Store.File

namespace Foreman.CommandLine

/-- How the program ends, and what it prints. -/
structure Exit where
  code : Nat
  output : String
  errors : String
deriving DecidableEq, Repr

namespace Exit

def success : Nat := 0

/-- Bad settings, a start that failed, or any other error. -/
def invalid : Nat := 1

/-- The task that was named is in no store. -/
def notFound : Nat := 2

/-- A task was still in work when the time for a shutdown was over. -/
def shutdownTimeout : Nat := 3

/-- The words make no command. -/
def misuse : Nat := 2

def ok (output : String) : Exit := ⟨success, output, ""⟩

def failed (f : Fault) : Exit := ⟨invalid, "", f.full ++ "\n"⟩

/-- The end of a command on which the store has failed. -/
def ofStoreError (e : StoreError) (f : Fault) : Exit :=
  match e with
  | .notFound _ => ⟨notFound, "", f.full ++ "\n"⟩
  | .other _ => failed f

end Exit

def usageLines : List String :=
  ["Run queued tasks through a coding agent and verify what it pushes", "",
    "Usage: dispatcher [--config <CONFIG>] <COMMAND>", "", "Commands:",
    "  run     Start the executor and process queued tasks until Ctrl-C",
    "  add     Add a task to the store and print its id",
    "  list    List tasks, oldest first",
    "  queue   Move a task to queued",
    "  cancel  Move a task to cancelled", ""]

def usage : String := "\n".intercalate usageLines

def version : String := "dispatcher 0.1.0\n"

def Stop.exit : Stop → Exit
  | help => .ok usage
  | version => .ok CommandLine.version
  | misuse => ⟨Exit.misuse, "", usage⟩

/-- What a command leads to. -/
inductive Plan where
  | exit (e : Exit)
  /-- An executor is to be hosted. -/
  | host (s : Settings) (sink : NoticeSink)

def add (s : FileStore) (d : TaskDraft) (o : Occasion) : FileProgram Exit := do
  match ← s.perform (.insert d) o with
  | .ok (.task t) => return .ok s!"{t.id}\n"
  | .ok _ => return .ok ""
  | .error e => return .ofStoreError e e.fault

def listLine (t : Task) : String := s!"{t.id}\t{t.status.name}\t{t.title}\n"

/-- The tasks by time of creation, all of them or those of one status. -/
def list (s : FileStore) (status : Option Task.Status) (o : Occasion) : FileProgram Exit := do
  match ← s.perform .list o with
  | .ok (.tasks ts) =>
    let shown := ts.filter fun t => status.all (· = t.status)
    return .ok (String.join (shown.map listLine))
  | .ok _ => return .ok ""
  | .error e => return .ofStoreError e e.fault

def move (s : FileStore) (id : String) (status : Task.Status) (o : Occasion) :
    FileProgram Exit := do
  match ← s.perform (.set id (.ofStatus status)) o with
  | .ok _ => return .ok s!"{id}\t{status.name}\n"
  | .error e => return .ofStoreError e (e.fault.within s!"set task {id} to {status.name}")

/-- What a command does under some settings. -/
def Command.execute (s : Settings) (o : Occasion) : Command → FileProgram Plan
  | run sink => return .host s sink
  | add d => do return .exit (← CommandLine.add ⟨s.storePath⟩ d o)
  | list none => do return .exit (← CommandLine.list ⟨s.storePath⟩ none o)
  | list (some text) =>
    match Task.Status.ofName? text with
    | none => return .exit (.failed (.of (Task.Status.unknownMessage text)))
    | some status => do return .exit (← CommandLine.list ⟨s.storePath⟩ (some status) o)
  | queue id => do return .exit (← move ⟨s.storePath⟩ id .queued o)
  | cancel id => do return .exit (← move ⟨s.storePath⟩ id .cancelled o)

def Invocation.execute (i : Invocation) (o : Occasion) : FileProgram Plan := do
  match ← Settings.load i.settings with
  | .error f => return .exit (.failed f)
  | .ok s => i.command.execute s o

/-- What the words of a command line lead to. -/
def execute (ws : List String) (o : Occasion) : FileProgram Plan :=
  match read ws with
  | .error s => return .exit s.exit
  | .ok i => i.execute o

end Foreman.CommandLine

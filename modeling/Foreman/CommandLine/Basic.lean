import Foreman.CommandLine.Words
import Foreman.Task.Basic

namespace Foreman.CommandLine

/-- Where the notices of a hosted executor go. -/
inductive NoticeSink where
  | standardOutput
  | log
deriving DecidableEq, Repr

inductive Command where
  /-- Hosts an executor until it is interrupted. -/
  | run (sink : NoticeSink)
  | add (draft : TaskDraft)
  | list (status : Option String)
  | queue (id : String)
  | cancel (id : String)

/-- A command and the settings file that it goes by. -/
structure Invocation where
  settings : String
  command : Command

def defaultSettings : String := ".dispatcher/config.toml"

def anyValue (_ : String) : Bool := true

def notEmpty (s : String) : Bool := s ≠ ""

def NoticeSink.ofName? : String → Option NoticeSink
  | "stdout" => some .standardOutput
  | "log" => some .log
  | _ => none

/-- The option that every level takes. -/
def settingsOption : String × (String → Bool) := ("config", notEmpty)

def commandNames : List String := ["run", "add", "list", "queue", "cancel", "help"]

def topGrammar : Grammar := ⟨[settingsOption], [], 0, commandNames, true⟩

def grammarOf : String → Grammar
  | "run" =>
    ⟨[settingsOption, ("notify", fun s => (NoticeSink.ofName? s).isSome)], [], 0, [], false⟩
  | "add" =>
    ⟨[settingsOption, ("description", anyValue), ("area", anyValue), ("notes", anyValue)],
      ["backlog"], 1, [], false⟩
  | "list" => ⟨[settingsOption, ("status", anyValue)], [], 0, [], false⟩
  | _ => ⟨[settingsOption], [], 1, [], false⟩

/-- The command that a name and the words behind it make. -/
def commandOf (name : String) (r : Words) : Command :=
  let first := r.positionals.headD ""
  match name with
  | "run" =>
    .run (((r.option? "notify").bind NoticeSink.ofName?).getD .standardOutput)
  | "add" =>
    .add {
      title := first
      description := r.option? "description"
      notes := r.option? "notes"
      area := r.option? "area"
      status := if r.flags.contains "backlog" then some .backlog else none }
  | "list" => .list (r.option? "status")
  | "queue" => .queue first
  | _ => .cancel first

/-- What is asked for with `help`: the program, or one command. -/
def readHelp : List String → Stop
  | [] => .help
  | [name] => if commandNames.contains name then .help else .misuse
  | _ => .misuse

/-- The invocation that the words of a command line make. -/
def read (ws : List String) : Except Stop Invocation := do
  let (top, rest) ← Words.read topGrammar false .empty ws
  match rest with
  | [] => throw .misuse
  | "help" :: ws => throw (readHelp ws)
  | name :: ws =>
    let r ← Words.readAll (grammarOf name) ws
    let top ← top.settle topGrammar
    let settings := (r.option? "config").orElse fun _ => top.option? "config"
    return ⟨settings.getD defaultSettings, commandOf name r⟩

end Foreman.CommandLine

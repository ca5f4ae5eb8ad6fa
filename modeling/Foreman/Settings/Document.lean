import Foreman.Settings.Basic
import Foreman.Toml.Printer
import Foreman.Toml.Basic

namespace Foreman.Settings

open Toml

def numbers (s : Settings) : List (String × Written) :=
  [("poll_interval_secs", .number s.pollSeconds.toNat),
    ("agent_timeout_secs", .number s.agentSeconds.toNat),
    ("shutdown_timeout_secs", .number s.shutdownSeconds.toNat),
    ("output_limit_bytes", .number s.outputLimit.toNat),
    ("notify_buffer", .number s.noticeCapacity.toNat)]

def Repository.entries (r : Repository) : List (String × Written) :=
  (r.url.map fun url => ("url", Written.text url)).toList ++
    [("workdir", .text r.workdir), ("remote", .text r.remote), ("branch", .text r.branch)]

def Agent.entries (a : Agent) : List (String × Written) :=
  [("program", .text a.program), ("args", .texts a.arguments),
    ("env_passthrough", .texts a.passthrough)]

def sections (s : Settings) : List Section :=
  [⟨[], s.numbers⟩, ⟨["repo"], s.repository.entries⟩, ⟨["agent"], s.agent.entries⟩,
    ⟨["agent", "env"], s.agent.assignments.entries.map fun (name, v) => (name, .text v)⟩,
    ⟨["store"], [("path", .text s.storePath)]⟩,
    ⟨["redact"], [("env_vars", .texts s.secretVariables)]⟩]

/-- The document, with an empty line at its end. -/
def render (s : Settings) : String := String.ofList (writeDocument s.sections ++ ['\n'])

def repositoryNames : List String := ["url", "workdir", "remote", "branch"]

def Repository.ofToml? (v : Toml) : Option Repository := do
  let fs ← fields? repositoryNames v
  let other := standard.repository
  return {
    url := ← field? fs "url" other.url fun v => (asText? v).map some
    workdir := ← field? fs "workdir" other.workdir asText?
    remote := ← field? fs "remote" other.remote asText?
    branch := ← field? fs "branch" other.branch asText? }

def variablesOfToml? (v : Toml) : Option Variables := do
  let entries ← (← members? v).mapM fun (name, v) => (asText? v).map fun text => (name, text)
  return .ofList entries

def agentNames : List String := ["program", "args", "env_passthrough", "env"]

def Agent.ofToml? (v : Toml) : Option Agent := do
  let fs ← fields? agentNames v
  let other := standard.agent
  return {
    program := ← field? fs "program" other.program asText?
    arguments := ← field? fs "args" other.arguments asTexts?
    passthrough := ← field? fs "env_passthrough" other.passthrough asTexts?
    assignments := ← field? fs "env" other.assignments variablesOfToml? }

def storePathOfToml? (v : Toml) : Option String := do
  field? (← fields? ["path"] v) "path" standard.storePath asText?

def secretVariablesOfToml? (v : Toml) : Option (List String) := do
  field? (← fields? ["env_vars"] v) "env_vars" standard.secretVariables asTexts?

def ofMembers? (ms : List (String × Toml)) : Option Settings := do
  let other := standard
  return {
    pollSeconds := ← field? ms "poll_interval_secs" other.pollSeconds asUInt64?
    agentSeconds := ← field? ms "agent_timeout_secs" other.agentSeconds asUInt64?
    shutdownSeconds := ← field? ms "shutdown_timeout_secs" other.shutdownSeconds asUInt64?
    outputLimit := ← field? ms "output_limit_bytes" other.outputLimit asUInt64?
    noticeCapacity := ← field? ms "notify_buffer" other.noticeCapacity asUInt64?
    repository := ← field? ms "repo" other.repository Repository.ofToml?
    agent := ← field? ms "agent" other.agent Agent.ofToml?
    storePath := ← field? ms "store" other.storePath storePathOfToml?
    secretVariables := ← field? ms "redact" other.secretVariables secretVariablesOfToml? }

/-- The settings that a document holds. -/
def parse? (text : String) : Option Settings := (document? text.toList).bind ofMembers?

end Foreman.Settings

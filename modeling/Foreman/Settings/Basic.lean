import Foreman.Directive
import Foreman.Redaction.Basic
import Foreman.Settings.Variables
import Foreman.Time.Span

namespace Foreman

namespace Settings

/-- The repository that the agent works on. -/
structure Repository where
  /-- Where it is cloned from; without it, the checkout must be there. -/
  url : Option String
  /-- The checkout that the agent alone uses. -/
  workdir : String
  remote : String
  branch : String

structure Agent where
  program : String
  arguments : List String
  /-- Variables of the host that the agent gets. -/
  passthrough : List String
  /-- Variables that are set for the agent. -/
  assignments : Variables

end Settings

structure Settings where
  pollSeconds : UInt64
  agentSeconds : UInt64
  /-- How long a shutdown waits for a task in work. -/
  shutdownSeconds : UInt64
  /-- How many bytes of each output stream are kept. -/
  outputLimit : UInt64
  noticeCapacity : UInt64
  repository : Settings.Repository
  agent : Settings.Agent
  storePath : String
  /-- Variables of the host whose values are secret. -/
  secretVariables : List String

/-- The variables of the environment that the program runs in. -/
abbrev Host := String → Option String

namespace Settings

def standard : Settings where
  pollSeconds := 10
  agentSeconds := 30 * 60
  shutdownSeconds := 31 * 60
  outputLimit := 1000000
  noticeCapacity := 64
  repository := ⟨none, ".dispatcher/workspace", "origin", "main"⟩
  agent :=
    { program := "claude"
      arguments := ["-p", "--output-format", "json", "--dangerously-skip-permissions"]
      passthrough := ["PATH", "HOME", "ANTHROPIC_API_KEY", "GH_TOKEN"]
      assignments := .empty }
  storePath := ".dispatcher/tasks.json"
  secretVariables := ["ANTHROPIC_API_KEY", "GH_TOKEN", "GITHUB_TOKEN"]

/-- What makes settings useless. -/
inductive Defect where
  | noPollInterval
  | noAgentTime
  | shutdownTooShort (shutdown agent : UInt64)
  | noOutput
  | noNotices
  | blankProgram
  | blankTarget
  | blankUrl
deriving DecidableEq, Repr

def Defect.message : Defect → String
  | noPollInterval => "poll_interval_secs must be > 0"
  | noAgentTime => "agent_timeout_secs must be > 0"
  | shutdownTooShort shutdown agent =>
    s!"shutdown_timeout_secs ({shutdown.toNat}) must exceed agent_timeout_secs ({agent.toNat})"
  | noOutput => "output_limit_bytes must be > 0"
  | noNotices => "notify_buffer must be > 0"
  | blankProgram => "agent.program must be non-empty"
  | blankTarget => "repo.remote and repo.branch must be non-empty"
  | blankUrl => "repo.url must be non-empty when set"

def isBlank (s : String) : Bool := Text.isBlankText s.toList

/-- The first defect that is found. -/
def defect? (s : Settings) : Option Defect :=
  if s.pollSeconds = 0 then some .noPollInterval
  else if s.agentSeconds = 0 then some .noAgentTime
  else if s.shutdownSeconds ≤ s.agentSeconds then
    some (.shutdownTooShort s.shutdownSeconds s.agentSeconds)
  else if s.outputLimit = 0 then some .noOutput
  else if s.noticeCapacity = 0 then some .noNotices
  else if isBlank s.agent.program then some .blankProgram
  else if isBlank s.repository.remote || isBlank s.repository.branch then some .blankTarget
  else if s.repository.url.any isBlank then some .blankUrl
  else none

def seconds (n : UInt64) : Span := ⟨n.toNat * 1000000000⟩

def pollInterval (s : Settings) : Span := seconds s.pollSeconds

def agentTimeout (s : Settings) : Span := seconds s.agentSeconds

def shutdownTimeout (s : Settings) : Span := seconds s.shutdownSeconds

def target (s : Settings) : PushTarget := ⟨s.repository.remote, s.repository.branch⟩

/-- Hides the secret variables of the host and every variable that is set for the agent. -/
def redactor (s : Settings) (host : Host) : Redactor :=
  .ofValues (s.secretVariables.filterMap host ++ s.agent.assignments.values)

/-- Everything that the agent's environment holds: what is passed through, then what is set. -/
def Agent.environment (a : Agent) (host : Host) : Variables :=
  let passed := a.passthrough.foldl
    (fun vs name =>
      match host name with
      | some value => vs.insert name value
      | none => vs)
    .empty
  a.assignments.entries.foldl (fun vs (name, value) => vs.insert name value) passed

end Settings

end Foreman

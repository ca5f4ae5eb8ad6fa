import Foreman.Child.Outcome
import Foreman.Settings.Basic

namespace Foreman

structure Launch where
  program : String
  arguments : List String
  workdir : String
  /-- Everything that the child's environment holds. -/
  environment : Variables
  /-- What the child reads. -/
  input : String
  timeout : Span
  /-- How many bytes of each output stream are kept. -/
  outputLimit : Nat

namespace Settings

/-- How the agent is started on a directive. -/
def launch (s : Settings) (host : Host) (directive : String) (timeout : Span) : Launch where
  program := s.agent.program
  arguments := s.agent.arguments
  workdir := s.repository.workdir
  environment := s.agent.environment host
  input := directive
  timeout
  outputLimit := s.outputLimit.toNat

/-- What came of starting the agent. -/
def agentAnswer (s : Settings) : Except LaunchError ChildOutcome → Except Fault ChildOutcome
  | .ok o => .ok o
  | .error e => .error ((e.within "spawn command").within s!"run agent {s.agent.program}")

end Settings

end Foreman

import Foreman.Fault
import Foreman.Files.Tree

namespace Foreman

/-- Why a child could not be started. -/
inductive LaunchError where
  | system (error : FileError)
  /-- A zero byte stands in what the child is started with. -/
  | zeroByte
deriving DecidableEq

namespace LaunchError

def message : LaunchError → String
  | system e => e.message
  | zeroByte => "nul byte found in provided data"

/-- The error as the cause of a fault. -/
def within (e : LaunchError) (doing : String) : Fault := (Fault.of e.message).within doing

end LaunchError

/-- How a child process ended and what was captured of its output. -/
structure ChildOutcome where
  /-- It ended by itself, in time, with exit code zero. -/
  success : Bool
  /-- Absent where a signal ended it. -/
  exitCode : Option Int
  stdout : String
  stderr : String
  timedOut : Bool
  /-- Bytes beyond the capture limit. -/
  stdoutDropped : Nat
  stderrDropped : Nat
deriving DecidableEq, Repr

end Foreman

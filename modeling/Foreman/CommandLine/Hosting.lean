import Foreman.Child.Launch
import Foreman.CommandLine.Execution
import Foreman.Executor.Step
import Foreman.Git.Verification
import Foreman.Git.Workspace

namespace Foreman

namespace Settings

def policy (s : Settings) (host : Host) : RunPolicy := ⟨s.redactor host, s.agentTimeout, s.target⟩

def setup (s : Settings) (host : Host) : Executor.Setup :=
  ⟨s.pollInterval, s.noticeCapacity.toNat, s.policy host⟩

def checkout (s : Settings) : Checkout := ⟨s.repository.workdir⟩

def workspace (s : Settings) : Workspace := ⟨s.checkout, s.repository.url, s.target⟩

def store (s : Settings) : FileStore := ⟨s.storePath⟩

end Settings

namespace CommandLine

/-- A host whose executor does not start ends at once. -/
def startFailure (e : Executor.ControlError) : Exit := ⟨Exit.invalid, "", e.message ++ "\n"⟩

def stillRunning (s : Settings) : String :=
  s!"task still running after {s.shutdownTimeout.seconds}s, shutting down anyway"

/-- The end of a host that was interrupted: what it printed on the error stream, and whether the
executor went idle in time. -/
def hostExit (s : Settings) (messages : List String) (idle : Bool) : Exit :=
  let messages := if idle then messages else messages ++ [stillRunning s]
  ⟨if idle then Exit.success else Exit.shutdownTimeout, "",
    String.join (messages.map fun m => m ++ "\n")⟩

end CommandLine

end Foreman

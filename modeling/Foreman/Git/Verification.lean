import Foreman.Directive
import Foreman.Git.Checkout

namespace Foreman

/-- Whether a target is among the branches that have a commit. -/
def PushTarget.isAmong (t : PushTarget) (branches : List String) : Bool := branches.contains t.text

namespace Checkout

/-- Asks the remote again, then looks for the commit. Whatever fails, the commit is not verified. -/
def verifies (c : Checkout) (t : PushTarget) (commit : String) : GitProgram Bool := do
  let found ← ExceptT.run do
    c.fetch t.remote
    c.branchesWith commit
  match found with
  | .ok branches => return t.isAmong branches
  | .error _ => return false

end Checkout

end Foreman

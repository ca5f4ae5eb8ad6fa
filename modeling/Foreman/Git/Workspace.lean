import Foreman.Directive
import Foreman.Git.Checkout

namespace Foreman

structure Workspace where
  checkout : Checkout
  /-- Where to clone from. -/
  url : Option String
  target : PushTarget
deriving DecidableEq, Repr

namespace Workspace

def noUrlMessage (w : Workspace) : String :=
  s!"{w.checkout.workdir} is not a git checkout and no repo.url is configured"

def cloneIfMissing (w : Workspace) : GitAction Unit := do
  if ← (w.checkout.isPresent : GitProgram Bool) then return
  else
    match w.url with
    | none => throw (.of w.noUrlMessage)
    | some url => w.checkout.clone url

/-- Whether the branch is checked out; where that cannot be told, it is not. -/
def isOnBranch (w : Workspace) : GitAction Bool :=
  tryCatch (do return (← w.checkout.currentBranch) = w.target.branch) fun _ => return false

/-- Goes to the branch, unless it is checked out already. -/
def switch (w : Workspace) : GitAction Unit := do
  if ← w.isOnBranch then return
  else w.checkout.switchTo w.target.branch

/-- One attempt to prepare the checkout. -/
def setUp (w : Workspace) : GitAction Unit := do
  let c := w.checkout
  let t := w.target
  w.cloneIfMissing
  c.fetch t.remote
  if ← c.hasBranch t.branch then
    w.switch
    if ← c.hasRemoteBranch t.remote t.branch then c.pull
  else if ← c.hasRemoteBranch t.remote t.branch then
    c.createTracking t.branch t.text
  else c.createBranch t.branch

/-- Prepares the checkout if it is not ready yet; also whether it is ready now. -/
def prepare (w : Workspace) (ready : Bool) : GitProgram (Except Fault Unit × Bool) := do
  if ready then return (.ok (), true)
  else
    match ← w.setUp.run with
    | .ok () => return (.ok (), true)
    | .error f => return (.error f, false)

end Workspace

end Foreman

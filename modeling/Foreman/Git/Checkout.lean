import Foreman.Files.Path
import Foreman.Git.Program
import Foreman.Text.Blank
import Foreman.Text.Search

namespace Foreman

/-- A checkout, in a directory that may not be there yet. -/
structure Checkout where
  workdir : String
deriving DecidableEq, Repr

namespace Checkout

def isPresent (c : Checkout) : GitProgram Bool :=
  .present (Path.join c.workdir ".git") .done

def commandLine (arguments : List String) : String := " ".intercalate ("git" :: arguments)

def trimmed (s : String) : String := String.ofList (Text.trim s.toList)

/-- Runs a command, which may end in any way. -/
def run (c : Checkout) (arguments : List String) : GitAction GitOutput :=
  ExceptT.mk <|
    .command (some c.workdir) arguments fun r =>
      .done (r.mapError fun e => e.within s!"spawn {commandLine arguments}")

/-- Runs a command that must succeed. -/
def require (c : Checkout) (arguments : List String) : GitAction GitOutput := do
  let r ← c.run arguments
  if r.success then return r
  else throw (.of s!"{commandLine arguments} failed: {trimmed r.errors}")

def makeParent (c : Checkout) : GitAction Unit :=
  match Path.parent? c.workdir with
  | none => return
  | some parent =>
    ExceptT.mk <|
      .makeDirectories parent fun r =>
        .done (r.mapError fun e => (Fault.of e.message).within s!"create clone parent {parent}")

/-- Clones a repository to where the checkout is to be. -/
def clone (c : Checkout) (url : String) : GitAction Unit := do
  c.makeParent
  let r ← ExceptT.mk <|
    .command none ["clone", url, c.workdir] fun r =>
      .done (r.mapError fun e => e.within "spawn git clone")
  if r.success then return
  else throw (.of s!"git clone failed: {trimmed r.errors}")

/-- The name of the branch that is checked out. -/
def currentBranch (c : Checkout) : GitAction String := do
  let r ← c.require ["rev-parse", "--abbrev-ref", "HEAD"]
  let name := trimmed r.output
  if name = "HEAD" then throw (.of "detached HEAD")
  else return name

def fetch (c : Checkout) (remote : String) : GitAction Unit := do
  let _ ← c.require ["fetch", "--prune", remote]

def hasReference (c : Checkout) (reference : String) : GitAction Bool := do
  let r ← c.run ["show-ref", "--verify", "--quiet", reference]
  return r.success

def hasBranch (c : Checkout) (branch : String) : GitAction Bool :=
  c.hasReference s!"refs/heads/{branch}"

def hasRemoteBranch (c : Checkout) (remote branch : String) : GitAction Bool :=
  c.hasReference s!"refs/remotes/{remote}/{branch}"

def createBranch (c : Checkout) (branch : String) : GitAction Unit := do
  let _ ← c.require ["checkout", "-b", branch]

/-- Creates a branch that follows one of a remote. -/
def createTracking (c : Checkout) (branch followed : String) : GitAction Unit := do
  let _ ← c.require ["checkout", "-b", branch, "--track", followed]

def switchTo (c : Checkout) (branch : String) : GitAction Unit := do
  let _ ← c.require ["checkout", branch]

/-- Moves the branch forward to what its remote branch has. -/
def pull (c : Checkout) : GitAction Unit := do
  let _ ← c.require ["pull", "--ff-only"]

/-- The name on a line of a list of branches; a line that shows an alias names none. -/
def branchName? (line : List Char) : Option (List Char) :=
  let name := Text.trim (line.dropWhile (· == '*'))
  if name.isEmpty || Text.occursIn ['-', '>'] name then none else some name

def branchNames (output : String) : List String :=
  ((Text.lines output.toList).filterMap branchName?).map String.ofList

/-- The remote branches that have a commit. -/
def branchesWith (c : Checkout) (commit : String) : GitAction (List String) := do
  let r ← c.require ["branch", "-r", "--contains", commit]
  return branchNames r.output

end Checkout

end Foreman

import Foreman.CommandLine.Hosting

/-!
# The program

Reads the command line, works on the files of the machine, and ends with an exit code. No program is
started from here: git answers as if it were not installed, so a host ends where its start fails.
-/

namespace Foreman

def FileError.ofSystem : IO.Error → FileError
  | .noFileOrDirectory .. => .notFound
  | .alreadyExists .. => .alreadyExists
  | .permissionDenied .. => .accessDenied
  | .inappropriateType .. => .isDirectory
  | .invalidArgument .. => .notDirectory
  | _ => .notText

def attempt (act : IO α) : IO (Except FileError α) := do
  match ← act.toBaseIO with
  | .ok a => return .ok a
  | .error e => return .error (.ofSystem e)

/-- Whether something stands at a path; that a part of the way is missing is no error. -/
def isThere (path : String) : IO (Except FileError Bool) := do
  match ← attempt (IO.FS.realPath path) with
  | .ok _ => return .ok true
  | .error .notFound => return .ok false
  | .error e => return .error e

def FileProgram.perform : FileProgram α → IO α
  | .done a => return a
  | .exists? path next => do (next (← isThere path)).perform
  | .readText path next => do (next (← attempt (IO.FS.readFile path))).perform
  | .makeDirectories path next => do (next (← attempt (IO.FS.createDirAll path))).perform
  | .write path content next => do (next (← attempt (IO.FS.writeFile path content))).perform
  | .rename source target next => do (next (← attempt (IO.FS.rename source target))).perform

def GitProgram.perform : GitProgram α → IO α
  | .done a => return a
  | .present path next => do (next ((← isThere path).toOption.getD false)).perform
  | .makeDirectories path next => do (next (← attempt (IO.FS.createDirAll path))).perform
  | .command _ _ next => (next (.error (.system .notFound))).perform

/-- The time, which is that of a file just made. -/
def clock : IO Instant := do
  let (_, path) ← IO.FS.createTempFile
  let modified := (← path.metadata).modified
  IO.FS.removeFile path
  match Instant.ofUnix? modified.sec modified.nsec.toNat with
  | some t => return t
  | none => throw (IO.userError "the clock is out of range")

def hexByte (b : UInt8) : List Char :=
  let ds := Nat.toDigits 16 b.toNat
  List.replicate (2 - ds.length) '0' ++ ds

/-- A random id: 32 hexadecimal digits in five groups, marked as random. -/
def randomId : IO String := do
  let bytes := (← IO.getRandomBytes 16).toList
  let marked := bytes.mapIdx fun i b =>
    if i = 6 then b % 16 + 0x40 else if i = 8 then b % 64 + 0x80 else b
  let ds := marked.flatMap hexByte
  let groups :=
    [ds.take 8, (ds.drop 8).take 4, (ds.drop 12).take 4, (ds.drop 16).take 4, ds.drop 20]
  return "-".intercalate (groups.map String.ofList)

/-- A host ends where its workspace cannot be prepared. -/
def hostOnce (s : Settings) : IO CommandLine.Exit := do
  let names := s.secretVariables
  let values ← names.mapM fun name => IO.getEnv name
  let host : Host := fun name => ((names.zip values).lookup name).bind id
  let (answer, _) ← (s.workspace.prepare false).perform
  match answer with
  | .error f =>
    return CommandLine.startFailure (.environment ((s.redactor host).redact f.full))
  | .ok () => return CommandLine.hostExit s [] true

def finish (e : CommandLine.Exit) : IO UInt32 := do
  (← IO.getStdout).putStr e.output
  (← IO.getStderr).putStr e.errors
  return UInt32.ofNat e.code

end Foreman

open Foreman in
def main (ws : List String) : IO UInt32 := do
  let o : Occasion := ⟨← clock, ← randomId⟩
  match ← (CommandLine.execute ws o).perform with
  | .exit e => finish e
  | .host s _ => do finish (← hostOnce s)

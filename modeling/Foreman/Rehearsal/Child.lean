import Foreman.Child.Capture
import Foreman.Child.Launch
import Foreman.Text.Utf8

namespace Foreman.Rehearsal

inductive Deed where
  | print (bytes : List UInt8)
  /-- Writes to the error stream. -/
  | complain (bytes : List UInt8)
  | pause (millis : Nat)

inductive Finish where
  | exits (code : Int)
  /-- A signal ends it. -/
  | killed
  | never

structure Conduct where
  deeds : List Deed
  finish : Finish

/-- What a child has written, and whether it came to its last deed. -/
structure Written where
  output : List UInt8
  errors : List UInt8
  complete : Bool

/-- What a child writes in so many milliseconds. -/
def writtenIn : Nat → List Deed → Written
  | _, [] => ⟨[], [], true⟩
  | time, .print bs :: ds =>
    let w := writtenIn time ds
    { w with output := bs ++ w.output }
  | time, .complain bs :: ds =>
    let w := writtenIn time ds
    { w with errors := bs ++ w.errors }
  | time, .pause n :: ds => if time ≤ n then ⟨[], [], false⟩ else writtenIn (time - n) ds

/-- What is made known of a child that has so many milliseconds. -/
def Conduct.outcome (c : Conduct) (time limit : Nat) : ChildOutcome :=
  let w := writtenIn time c.deeds
  let output := Capture.ofStream limit w.output
  let errors := Capture.ofStream limit w.errors
  let (inTime, code) : Bool × Option Int :=
    match c.finish with
    | .exits code => if w.complete then (true, some code) else (false, none)
    | .killed => (w.complete, none)
    | .never => (false, none)
  { success := code = some 0
    exitCode := code
    stdout := Text.ofBytes output.kept
    stderr := Text.ofBytes errors.kept
    timedOut := !inTime
    stdoutDropped := output.dropped
    stderrDropped := errors.dropped }

/-- The programs that can be started: those of one name that the cast plays, and none of the files
that lie about. -/
structure Programs where
  name : String
  conduct : Launch → FileTree → Conduct

def hasZero (s : String) : Bool := s.toList.contains '\x00'

def Launch.hasZero (l : Launch) : Bool :=
  Rehearsal.hasZero l.program || Rehearsal.hasZero l.workdir ||
    l.arguments.any Rehearsal.hasZero ||
    l.environment.entries.any fun (name, v) => Rehearsal.hasZero name || Rehearsal.hasZero v

/-- Why a program other than the played ones does not start in a directory. -/
def missing (t : FileTree) (workdir program : String) : FileError :=
  if program.toList.contains '/' then
    match t.stat (Path.join workdir program) with
    | .ok _ => .accessDenied
    | .error e => e
  else .notFound

/-- Starts a child and waits for its end. -/
def Programs.start (ps : Programs) (t : FileTree) (l : Launch) : Except LaunchError ChildOutcome :=
  if Launch.hasZero l then .error .zeroByte
  else
    match t.stat l.workdir with
    | .error e => .error (.system e)
    | .ok (.file _) => .error (.system .notDirectory)
    | .ok .directory =>
      if l.program = ps.name then
        .ok ((ps.conduct l t).outcome (l.timeout.nanos / 1000000) l.outputLimit)
      else .error (.system (missing t l.workdir l.program))

end Foreman.Rehearsal

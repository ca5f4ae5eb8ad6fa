import Foreman.CommandLine.Hosting
import Foreman.Rehearsal.Child
import Foreman.Rehearsal.Cue
import Foreman.Rehearsal.Git

/-!
# Played hosts

An executor is hosted on files, with git and the agent played, until it has printed enough, the
store file holds a certain text, and it is interrupted.
-/

namespace Foreman.Rehearsal

/-- The programs and the environment that a host finds. -/
structure Surroundings where
  host : Host
  git : GitScript
  programs : Programs
  now : Instant

structure HostWorld where
  git : GitWorld
  /-- Whether the checkout is prepared. -/
  ready : Bool

namespace HostWorld

def perform (w : HostWorld) (p : FileProgram α) : α × HostWorld :=
  let (a, tree) := p.run w.git.tree
  (a, { w with git := { w.git with tree } })

def ask (w : HostWorld) (s : GitScript) (p : GitProgram α) : α × HostWorld :=
  let (a, git) := p.run s.host w.git
  (a, { w with git })

end HostWorld

/-- How long a child takes, in milliseconds, if it is killed when its time is over. -/
def Conduct.duration (c : Conduct) (time : Nat) : Nat :=
  let pauses := c.deeds.map fun d =>
    match d with
    | .pause n => n
    | _ => 0
  match c.finish with
  | .never => time
  | _ => min (pauses.foldl (· + ·) 0) time

def occasion (u : Surroundings) : Occasion := ⟨u.now, ""⟩

def hostCast (s : Settings) (u : Surroundings) : Cast HostWorld where
  prepare w :=
    let ((r, ready), w) := w.ask u.git (s.workspace.prepare w.ready)
    (.atOnce r, { w with ready })
  requeue w :=
    match w.perform (s.store.perform .requeue (occasion u)) with
    | (.ok (.moved n), w) => (.ok n, w)
    | (.ok _, w) => (.ok 0, w)
    | (.error e, w) => (.error e, w)
  fetch w :=
    match w.perform (s.store.perform .fetch (occasion u)) with
    | (.ok (.found t), w) => (.atOnce (.ok t), w)
    | (.ok _, w) => (.atOnce (.ok none), w)
    | (.error e, w) => (.atOnce (.failed e.fault), w)
  write id update w :=
    match w.perform (s.store.perform (.set id update) (occasion u)) with
    | (.ok _, w) => (.ok (), w)
    | (.error e, w) => (.failed e.fault, w)
  work d w :=
    let l := s.launch u.host d s.agentTimeout
    let time := s.agentTimeout.nanos / 1000000
    let duration := (u.programs.conduct l w.git.tree).duration time
    match s.agentAnswer (u.programs.start w.git.tree l) with
    | .ok o => (⟨false, ⟨duration, .ok o⟩⟩, w)
    | .error f => (⟨false, .atOnce (.failed f)⟩, w)
  verify hash w :=
    let (b, w) := w.ask u.git (s.checkout.verifies s.target hash)
    (.ok b, w)

/-- When a host is interrupted: so many lines are printed, and a file holds a text. -/
structure Patience where
  lines : Nat
  file : String
  text : String

/-- The lines that the notices make on standard output. -/
def printed (sink : CommandLine.NoticeSink) (p : Play HostWorld) : List String :=
  match sink with
  | .log => []
  | .standardOutput => p.sink.delivered.flatMap fun text => text.splitOn "\n"

def Patience.isOver (a : Patience) (sink : CommandLine.NoticeSink) (p : Play HostWorld) : Bool :=
  a.lines ≤ (printed sink p).length &&
    (match p.world.git.tree.readText a.file with
      | .ok content => Text.occursIn a.text.toList content.toList
      | .error _ => a.text = "")

/-- Lets a host run until it is to be interrupted, as long as anything is set. -/
def runUntilOver (st : Staging HostWorld) (a : Patience) (sink : CommandLine.NoticeSink) :
    Nat → Play HostWorld → Play HostWorld
  | 0, p => p
  | n + 1, p =>
    let p := p.rest st
    if a.isOver sink p then p
    else
      match p.nextDeadline? with
      | some d => runUntilOver st a sink n (p.moveTo st d)
      | none => p

/-- The time that passes before the interruption, in milliseconds. -/
def grace : Nat := 100

/-- So many moments a host is waited for. -/
def moments : Nat := 1000

/-- What a host leaves: how it ended, the lines it printed, and the world. -/
structure Hosted where
  exit : CommandLine.Exit
  lines : List String
  world : HostWorld

/-- Hosts an executor from its start to its end. -/
def hostUntil (s : Settings) (sink : CommandLine.NoticeSink) (u : Surroundings) (a : Patience)
    (w : HostWorld) : Hosted :=
  let st : Staging HostWorld := ⟨s.setup u.host, hostCast s u⟩
  let (sight, r) := (Performance.begin w ⟨false, 0, []⟩).cue st (.call .start none)
  match sight with
  | .ended (some (.returned (.started (.ok started)))) =>
    let play := (runUntilOver st a sink moments r.play).advance st grace
    let (stopped, r) := { r with play }.cue st .stop
    let stoppedText :=
      match stopped with
      | .stopped (some (.ok message)) => [message]
      | _ => []
    let (waited, r) := r.cue st (.call (.wait (s.shutdownTimeout.nanos / 1000000)) none)
    let idle :=
      match waited with
      | .ended (some (.returned (.idle b))) => b
      | _ => false
    ⟨CommandLine.hostExit s (started :: stoppedText) idle, printed sink r.play, r.play.world⟩
  | .ended (some (.returned (.started (.error e)))) =>
    ⟨CommandLine.startFailure e, [], r.play.world⟩
  | _ => ⟨.ok "", [], r.play.world⟩

end Foreman.Rehearsal

import Foreman.Rehearsal.Play

namespace Foreman.Rehearsal

open Executor

/-- The calls on an executor that may take their time. -/
inductive Ask where
  | start
  | poll
  | wait (timeout : Nat)

def Ask.event (call : Nat) : Ask → Event
  | start => .start call
  | poll => .poll call
  | wait timeout => .wait call timeout

inductive Cue where
  | call (ask : Ask) (background : Option String)
  | abort (background : String)
  | stop
  | status
  | advance (millis : Nat)
  | release
  | releaseSink

/-- What a cue shows. -/
inductive Sight where
  | nothing
  | begun
  | ended (ending : Option Ending)
  | status (status : Executor.Status)
  | stopped (result : Option (Except ControlError String))

/-- A call that was left to itself: by which name, at which cue, and its number. -/
structure Background where
  name : String
  cue : Nat
  call : Nat

/-- A play and the cues it was given. -/
structure Performance (σ : Type) where
  play : Play σ
  cues : Nat
  backgrounds : List Background

namespace Performance

def begin (world : σ) (sink : Sink) : Performance σ := ⟨.begin world sink, 0, []⟩

def background? (r : Performance σ) (call : Nat) : Option Background :=
  r.backgrounds.find? (·.call == call)

def named? (r : Performance σ) (name : String) : Option Background :=
  r.backgrounds.find? (·.name == name)

/-- A call that is waited for begins at once, one that is left to itself when its turn comes. -/
def call (s : Staging σ) (r : Performance σ) (a : Ask) : Option String → Sight × Performance σ
  | none =>
    let (n, p) := r.play.newCall
    let p := (p.hurry (.event (a.event n))).runUntilEnd s n Play.patience
    (.ended (p.ending? n), { r with play := p })
  | some name =>
    let (n, p) := r.play.newCall
    let p := (p.enqueue (.event (a.event n))).rest s
    (.begun, { r with play := p, backgrounds := ⟨name, r.cues, n⟩ :: r.backgrounds })

def act (s : Staging σ) (r : Performance σ) : Cue → Sight × Performance σ
  | .call a background => r.call s a background
  | .abort name =>
    match r.named? name with
    | some b => (.nothing, { r with play := (r.play.cancel b.call).rest s })
    | none => (.nothing, r)
  | .stop =>
    let p := (r.play.hurry (.event .stop)).rest s
    (.stopped p.stopped, { r with play := p })
  | .status => (.status r.play.executor.status, r)
  | .advance millis => (.nothing, { r with play := r.play.advance s millis })
  | .release => (.nothing, { r with play := r.play.release.rest s })
  | .releaseSink => (.nothing, { r with play := r.play.releaseSink.rest s })

/-- Gives a cue. -/
def cue (s : Staging σ) (r : Performance σ) (c : Cue) : Sight × Performance σ :=
  let (sight, r) := r.act s c
  (sight, { r with cues := r.cues + 1 })

end Performance

end Foreman.Rehearsal

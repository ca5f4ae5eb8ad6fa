import Foreman.Run.Stage

namespace Foreman.Run

/-- The collaborators of a run, over the state of the world they act on. -/
structure Collaborators (σ : Type) where
  write : TaskUpdate → σ → Answer Unit × σ
  work : String → σ → Answer ChildOutcome × σ
  verify : String → σ → Except Panic Bool × σ

def Collaborators.reply (c : Collaborators σ) : Request → σ → Reply × σ
  | .write u, w => let (a, w) := c.write u w; (.written a, w)
  | .work d, w => let (a, w) := c.work d w; (.worked a, w)
  | .verify h, w => let (a, w) := c.verify h w; (.verified a, w)

/-- What was asked and answered in a run, the notices it queued, and where it stands. -/
structure Progress (σ : Type) where
  stage : Stage
  exchanges : List (Request × Reply)
  notices : List String
  world : σ

/-- Asks for what the stage needs and goes on with the answer. -/
def Progress.step (p : RunPolicy) (t : Task) (c : Collaborators σ) (g : Progress σ) : Progress σ :=
  match g.stage.request? p t with
  | none => g
  | some q =>
    let (reply, world) := c.reply q g.world
    let (stage, notices) := g.stage.next p t reply
    ⟨stage, g.exchanges ++ [(q, reply)], g.notices ++ notices, world⟩

def Progress.steps (p : RunPolicy) (t : Task) (c : Collaborators σ) :
    Nat → Progress σ → Progress σ
  | 0, g => g
  | n + 1, g => steps p t c n (g.step p t c)

/-- Runs a task to its end. -/
def drive (p : RunPolicy) (t : Task) (c : Collaborators σ) (world : σ) : Progress σ :=
  Progress.steps p t c 5 ⟨.marking, [], [], world⟩

end Foreman.Run

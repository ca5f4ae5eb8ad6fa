import Foreman.Run.Drive
import Foreman.Store.Basic

namespace Foreman.Rehearsal

/-- An answer that comes after a delay. -/
structure Timed (α : Type) where
  delay : Nat
  answer : α

def Timed.atOnce (a : α) : Timed α := ⟨0, a⟩

/-- What the agent does with a directive. -/
structure Turn where
  /-- Whether it waits at the gate first. -/
  gated : Bool
  outcome : Timed (Answer ChildOutcome)

structure Cast (σ : Type) where
  prepare : σ → Timed (Except Fault Unit) × σ
  requeue : σ → Except StoreError Nat × σ
  fetch : σ → Timed (Answer (Option Task)) × σ
  write : String → TaskUpdate → σ → Answer Unit × σ
  work : String → σ → Turn × σ
  verify : String → σ → Except Panic Bool × σ

/-- The cast as the collaborators of one task's run, without its delays. -/
def Cast.collaborators (c : Cast σ) (id : String) : Run.Collaborators σ where
  write := c.write id
  work d w := let (turn, w) := c.work d w; (turn.outcome.answer, w)
  verify := c.verify

end Foreman.Rehearsal

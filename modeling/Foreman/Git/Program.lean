import Foreman.Child.Outcome

/-!
# Git programs

A program asks whether something is there, for a directory, or for one git command after another,
and goes on with the answers. Who answers is left open.
-/

namespace Foreman

/-- What a git command printed, and whether it ended with exit code zero. -/
structure GitOutput where
  success : Bool
  output : String
  errors : String
deriving DecidableEq, Repr

inductive GitProgram (α : Type) where
  | done (result : α)
  | present (path : String) (next : Bool → GitProgram α)
  | makeDirectories (path : String) (next : Except FileError Unit → GitProgram α)
  /-- A command with its arguments, in a directory or where the program itself runs. -/
  | command (place : Option String) (arguments : List String)
      (next : Except LaunchError GitOutput → GitProgram α)

/-- Who answers git programs, over the state of a world. -/
structure GitHost (σ : Type) where
  present : String → σ → Bool
  makeDirectories : String → σ → Except FileError Unit × σ
  command : Option String → List String → σ → Except LaunchError GitOutput × σ

namespace GitProgram

def bind (p : GitProgram α) (f : α → GitProgram β) : GitProgram β :=
  match p with
  | .done a => f a
  | .present path next => .present path fun r => (next r).bind f
  | .makeDirectories path next => .makeDirectories path fun r => (next r).bind f
  | .command place arguments next => .command place arguments fun r => (next r).bind f

instance : Monad GitProgram where
  pure := .done
  bind := .bind

/-- Runs a program to its end. -/
def run (h : GitHost σ) : GitProgram α → σ → α × σ
  | .done a, w => (a, w)
  | .present path next, w => (next (h.present path w)).run h w
  | .makeDirectories path next, w =>
    let (r, w) := h.makeDirectories path w
    (next r).run h w
  | .command place arguments next, w =>
    let (r, w) := h.command place arguments w
    (next r).run h w

end GitProgram

/-- A git program that may fail. -/
abbrev GitAction (α : Type) := ExceptT Fault GitProgram α

end Foreman

import Foreman.Files.Tree

/-!
# File programs

A program asks for one file operation after another and goes on with the answers. It can be run on a
tree, on a disk, or be stopped between any two of its steps.
-/

namespace Foreman

inductive FileProgram (α : Type) where
  | done (result : α)
  | exists? (path : String) (next : Except FileError Bool → FileProgram α)
  | readText (path : String) (next : Except FileError String → FileProgram α)
  | makeDirectories (path : String) (next : Except FileError Unit → FileProgram α)
  | write (path : String) (content : String) (next : Except FileError Unit → FileProgram α)
  | rename (source target : String) (next : Except FileError Unit → FileProgram α)

namespace FileProgram

def bind (p : FileProgram α) (f : α → FileProgram β) : FileProgram β :=
  match p with
  | .done a => f a
  | .exists? path next => .exists? path fun r => (next r).bind f
  | .readText path next => .readText path fun r => (next r).bind f
  | .makeDirectories path next => .makeDirectories path fun r => (next r).bind f
  | .write path content next => .write path content fun r => (next r).bind f
  | .rename source target next => .rename source target fun r => (next r).bind f

instance : Monad FileProgram where
  pure := .done
  bind := .bind

/-- The tree after an operation that may fail, and whether it did. -/
def settle (t : FileTree) : Except FileError FileTree → Except FileError Unit × FileTree
  | .ok t => (.ok (), t)
  | .error e => (.error e, t)

/-- How far up a path a program makes directories. -/
def depth (path : String) : Nat := path.length + 1

/-- Runs a program to its end on a tree. -/
def run : FileProgram α → FileTree → α × FileTree
  | .done a, t => (a, t)
  | .exists? path next, t => (next (t.exists? path)).run t
  | .readText path next, t => (next (t.readText path)).run t
  | .makeDirectories path next, t =>
    let (r, t) := settle t (t.makeDirectories path (depth path))
    (next r).run t
  | .write path content next, t =>
    let (r, t) := settle t (t.write path content.toUTF8)
    (next r).run t
  | .rename source target next, t =>
    let (r, t) := settle t (t.rename source target)
    (next r).run t

end FileProgram

end Foreman

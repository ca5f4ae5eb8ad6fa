import Foreman.Fault
import Foreman.Files.Program

namespace Foreman

/-- A file whose content is replaced as a whole. -/
structure Replaceable where
  path : String
  /-- What the file is called when something goes wrong. -/
  what : String
  /-- The extension of the file that takes the new content first. -/
  extension : String
deriving DecidableEq, Repr

/-- The answer to a file operation, with what it was for. -/
def Fault.expect (doing : String) : Except FileError α → Except Fault α
  | .ok a => .ok a
  | .error e => .error ((Fault.of e.message).within doing)

namespace Replaceable

def temporaryPath (f : Replaceable) : String := Path.withExtension f.path f.extension

/-- Writes new content and moves it into place, once the directory is there. -/
def swap (f : Replaceable) (content : String) : FileProgram (Except Fault Unit) :=
  .write f.temporaryPath content fun written =>
    match Fault.expect s!"write temp {f.what} {f.temporaryPath}" written with
    | .error e => .done (.error e)
    | .ok () =>
      .rename f.temporaryPath f.path fun moved =>
        .done (Fault.expect s!"replace {f.what} {f.path}" moved)

def replace (f : Replaceable) (content : String) : FileProgram (Except Fault Unit) :=
  match Path.parent? f.path with
  | none => .done (.error (.of s!"{f.what} path missing parent {f.path}"))
  | some "" => f.swap content
  | some parent =>
    .makeDirectories parent fun made =>
      match Fault.expect s!"create directory {parent}" made with
      | .error e => .done (.error e)
      | .ok () => f.swap content

end Replaceable

end Foreman

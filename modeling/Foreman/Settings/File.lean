import Foreman.Files.Replacement
import Foreman.Settings.Document

namespace Foreman.Settings

/-- The settings themselves, or the fault of the first defect in them. -/
def checked (s : Settings) : Except Fault Settings :=
  match s.defect? with
  | none => .ok s
  | some d => .error (.of d.message)

def load (path : String) : FileProgram (Except Fault Settings) :=
  .exists? path fun there =>
    match there with
    | .ok true =>
      .readText path fun content =>
        match Fault.expect s!"read {path}" content with
        | .error e => .done (.error e)
        | .ok content =>
          match parse? content with
          | some s => .done s.checked
          | none => .done (.error ((Fault.of "malformed document").within s!"parse {path}"))
    | _ => .done standard.checked

def file (path : String) : Replaceable := ⟨path, "config", "toml.tmp"⟩

def save (path : String) (s : Settings) : FileProgram (Except Fault Unit) :=
  match s.defect? with
  | some d => .done (.error (.of d.message))
  | none => (file path).replace s.render

end Foreman.Settings

import Foreman.Files.Replacement
import Foreman.Store.Basic
import Foreman.Task.Document

namespace Foreman

/-- The store on the file that a path names. -/
structure FileStore where
  path : String
deriving DecidableEq, Repr

namespace FileStore

def file (s : FileStore) : Replaceable := ⟨s.path, "task store", "json.tmp"⟩

def load (s : FileStore) : FileProgram (Except Fault TaskBook) :=
  .exists? s.path fun there =>
    match Fault.expect s!"stat {s.path}" there with
    | .error e => .done (.error e)
    | .ok false => .done (.ok .empty)
    | .ok true =>
      .readText s.path fun content =>
        match Fault.expect s!"read task store {s.path}" content with
        | .error e => .done (.error e)
        | .ok content =>
          match TaskBook.parse? content with
          | some b => .done (.ok b)
          | none =>
            .done (.error ((Fault.of "malformed document").within s!"parse task store {s.path}"))

def save (s : FileStore) (b : TaskBook) : FileProgram (Except Fault Unit) := s.file.replace b.render

/-- The store's answer to a call; the file is written only if the call changes the book. -/
def perform (s : FileStore) (c : StoreCall) (o : Occasion) :
    FileProgram (Except StoreError StoreReply) := do
  match ← s.load with
  | .error e => return .error (.other e)
  | .ok b =>
    match b.answer c o with
    | .error e => return .error e
    | .ok (r, none) => return .ok r
    | .ok (r, some changed) =>
      match ← s.save changed with
      | .error e => return .error (.other e)
      | .ok () => return .ok r

end FileStore

end Foreman

import Foreman.Git.Program
import Foreman.Text.Utf8

namespace Foreman.Rehearsal

structure GitResponse where
  exit : Int
  output : List UInt8
  errors : List UInt8
  /-- A directory that is made, seen from where the command runs. -/
  directory : Option String

abbrev GitScript := Nat → GitResponse

/-- The files that git works on, and the commands it was given. -/
structure GitWorld where
  tree : FileTree
  calls : List (List String)

def makeDirectories (t : FileTree) (path : String) : Except FileError Unit × FileTree :=
  match t.makeDirectories path (path.length + 1) with
  | .ok t => (.ok (), t)
  | .error e => (.error e, t)

/-- Why a command does not start in a directory. -/
def placeError? (t : FileTree) : Option String → Option FileError
  | none => none
  | some place =>
    match t.stat place with
    | .ok .directory => none
    | .ok (.file _) => some .notDirectory
    | .error e => some e

/-- Plays the next response. -/
def GitScript.play (s : GitScript) (place : Option String) (arguments : List String)
    (w : GitWorld) : GitOutput × GitWorld :=
  let r := s w.calls.length
  let tree :=
    match r.directory with
    | none => w.tree
    | some d => (makeDirectories w.tree (Path.join (place.getD "") d)).2
  (⟨r.exit = 0, Text.ofBytes r.output, Text.ofBytes r.errors⟩, ⟨tree, w.calls ++ [arguments]⟩)

def GitScript.command (s : GitScript) (place : Option String) (arguments : List String)
    (w : GitWorld) : Except LaunchError GitOutput × GitWorld :=
  if (place.toList ++ arguments).any fun a => a.toList.contains '\x00' then (.error .zeroByte, w)
  else
    match placeError? w.tree place with
    | some e => (.error (.system e), w)
    | none =>
      let (o, w) := s.play place arguments w
      (.ok o, w)

def GitScript.host (s : GitScript) : GitHost GitWorld where
  present path w := (w.tree.exists? path).toOption.getD false
  makeDirectories path w :=
    let (r, tree) := Rehearsal.makeDirectories w.tree path
    (r, { w with tree })
  command := s.command

end Foreman.Rehearsal

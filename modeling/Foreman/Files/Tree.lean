import Foreman.Files.Path

/-!
# File trees

Files and directories, and the operations on them with the errors that a system reports. A path
starts at the top of the tree or at the working directory; above the top there is nothing but the
top.
-/

namespace Foreman

inductive FileError where
  | notFound
  | notDirectory
  | isDirectory
  | alreadyExists
  | accessDenied
  | notText
  | nameTooLong
  | zeroInName
deriving DecidableEq, Repr

def FileError.message : FileError → String
  | notFound => "No such file or directory (os error 2)"
  | notDirectory => "Not a directory (os error 20)"
  | isDirectory => "Is a directory (os error 21)"
  | alreadyExists => "File exists (os error 17)"
  | accessDenied => "Permission denied (os error 13)"
  | notText => "stream did not contain valid UTF-8"
  | nameTooLong => "File name too long (os error 36)"
  | zeroInName => "file name contained an unexpected NUL byte"

inductive FileNode where
  | directory
  | file (content : ByteArray)

/-- Every file and directory by the names that lead to it. The top is not listed. -/
structure FileTree where
  entries : List (List String × FileNode)
  /-- The working directory. -/
  workdir : List String

namespace FileTree

/-- Nothing but the top, which is the working directory. -/
def empty : FileTree := ⟨[], []⟩

/-- What stands at a place that was walked to. -/
def node? (t : FileTree) (place : List String) : Option FileNode :=
  if place.isEmpty then some .directory else t.entries.lookup place

def put (t : FileTree) (place : List String) (n : FileNode) : FileTree :=
  { t with entries := t.entries.filter (·.1 ≠ place) ++ [(place, n)] }

def remove (t : FileTree) (place : List String) : FileTree :=
  { t with entries := t.entries.filter (·.1 ≠ place) }

/-- Walks from a place through all steps but the last one, and names where the last one leads. -/
def walk (t : FileTree) : List String → List String → Except FileError (List String)
  | place, [] => .ok place
  | place, step :: steps => do
    match t.node? place with
    | none => throw .notFound
    | some (.file _) => throw .notDirectory
    | some .directory =>
      if step.utf8ByteSize > 255 then throw .nameTooLong
      let next := if step = "." then place else if step = ".." then place.dropLast
        else place ++ [step]
      walk t next steps

/-- The place that a path names, whether or not something stands there. -/
def locate (t : FileTree) (p : String) : Except FileError (List String) :=
  if p.toList.contains '\x00' then .error .zeroInName
  else if p = "" then .error .notFound
  else walk t (if Path.isAbsolute p then [] else t.workdir) (Path.steps p)

def stat (t : FileTree) (p : String) : Except FileError FileNode := do
  let place ← t.locate p
  match t.node? place with
  | none => throw .notFound
  | some n => return n

/-- Whether something stands at a path; that a part of the way is missing is no error. -/
def exists? (t : FileTree) (p : String) : Except FileError Bool :=
  match t.stat p with
  | .ok _ => .ok true
  | .error .notFound => .ok false
  | .error e => .error e

def isDirectory (t : FileTree) (p : String) : Bool :=
  match t.stat p with
  | .ok .directory => true
  | _ => false

def read (t : FileTree) (p : String) : Except FileError ByteArray := do
  match ← t.stat p with
  | .directory => throw .isDirectory
  | .file content => return content

/-- The content of a file that is text. -/
def readText (t : FileTree) (p : String) : Except FileError String := do
  match String.fromUTF8? (← t.read p) with
  | some s => return s
  | none => throw .notText

/-- Makes one directory, whose parent must be there. -/
def makeDirectory (t : FileTree) (p : String) : Except FileError FileTree := do
  let place ← t.locate p
  match t.node? place with
  | some _ => throw .alreadyExists
  | none => return t.put place .directory

/-- Makes a directory and those above it that are missing. -/
def makeDirectories (t : FileTree) (p : String) : Nat → Except FileError FileTree
  | 0 => .error .notFound
  | n + 1 =>
    if p = "" then .ok t
    else
      match t.makeDirectory p with
      | .ok t => .ok t
      | .error .notFound =>
        match Path.parent? p with
        | none => .error .notFound
        | some parent => do
          let t ← t.makeDirectories parent n
          match t.makeDirectory p with
          | .ok t => return t
          | .error e => if t.isDirectory p then return t else throw e
      | .error e => if t.isDirectory p then .ok t else .error e

/-- Replaces the content of a file, which is made if it is missing. -/
def write (t : FileTree) (p : String) (content : ByteArray) : Except FileError FileTree := do
  let place ← t.locate p
  match t.node? place with
  | some .directory => throw .isDirectory
  | _ => return t.put place (.file content)

/-- Moves a file over another one. -/
def rename (t : FileTree) (source target : String) : Except FileError FileTree := do
  let origin ← t.locate source
  let place ← t.locate target
  match t.node? origin, t.node? place with
  | none, _ => throw .notFound
  | some (.file _), some .directory => throw .isDirectory
  | some .directory, some (.file _) => throw .notDirectory
  | some n, _ => return (t.remove origin).put place n

end FileTree

end Foreman

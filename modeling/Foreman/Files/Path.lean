namespace Foreman.Path

/-- Splits at every slash. -/
def split : List Char → List (List Char)
  | [] => [[]]
  | c :: r =>
    if c = '/' then [] :: split r
    else
      match split r with
      | [] => [[c]]
      | p :: ps => (c :: p) :: ps

def isAbsolute (p : String) : Bool := p.toList.head? = some '/'

/-- The components to walk through, from the working directory on. A slash at the end asks for a
directory, as a point does. -/
def steps (p : String) : List String :=
  let parts := (split p.toList).map String.ofList
  let kept := parts.filter fun s => s ≠ "" && s ≠ "."
  if 1 < parts.length && (parts.getLast? = some "" || parts.getLast? = some ".") then kept ++ ["."]
  else kept

/-- Drops slashes and lone points at the end of a reversed path. -/
def dropTail : Nat → List Char → List Char
  | 0, s => s
  | n + 1, '/' :: r => if r.isEmpty then ['/'] else dropTail n r
  | n + 1, '.' :: '/' :: r => if r.isEmpty then ['/'] else dropTail n r
  | _, s => s

/-- The path without what follows its last component. -/
def tidy (s : List Char) : List Char := (dropTail s.length s.reverse).reverse

/-- The last component of a path, and the path up to it with the slash. -/
def lastPart (p : String) : List Char × List Char :=
  let r := (tidy p.toList).reverse
  ((r.dropWhile (· != '/')).reverse, (r.takeWhile (· != '/')).reverse)

/-- The directory that holds what a path names; a path of one component has the empty one, and
neither the root nor the empty path has any. -/
def parent? (p : String) : Option String :=
  match lastPart p with
  | (_, []) => none
  | (front, _) => some (String.ofList (tidy front))

/-- The name that a path ends in, unless that is a point or two. -/
def fileName? (p : String) : Option (List Char) :=
  match (lastPart p).2 with
  | [] | ['.'] | ['.', '.'] => none
  | name => some name

/-- A name without its extension. A point at the beginning starts no extension. -/
def stem (name : List Char) : List Char :=
  match name.reverse.dropWhile (· != '.') with
  | [] | ['.'] => name
  | _ :: front => front.reverse

/-- The path with another extension. -/
def withExtension (p ext : String) : String :=
  match fileName? p with
  | none => p
  | some name => String.ofList ((lastPart p).1 ++ stem name ++ '.' :: ext.toList)

/-- A path below a directory, unless it is absolute. -/
def join (dir p : String) : String :=
  if isAbsolute p || dir = "" then p
  else if dir.toList.getLast? = some '/' then dir ++ p
  else dir ++ "/" ++ p

end Foreman.Path

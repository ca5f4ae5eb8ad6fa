import Foreman.Toml.Basic

/-!
# Building tables

A document names its tables in headers and dotted keys, in any order, but each table once: what was
written as a whole is not taken up again.
-/

namespace Foreman.Toml

/-- How a table came about. -/
inductive Origin where
  /-- By a header of its own, or as a row of tables. -/
  | header
  /-- By a header for a table below it. -/
  | implied
  /-- By a dotted key. -/
  | dotted
deriving DecidableEq, Repr

/-- What a name stands for while the document is read. Rows of tables have the last one first. -/
inductive Node where
  | value (v : Toml)
  | table (origin : Origin) (members : List (String × Node))
  | rows (tables : List (List (String × Node)))

abbrev Members := List (String × Node)

/-- Gives a name another node, at the end if it is new. -/
def Members.put (name : String) (n : Node) : Members → Members
  | [] => [(name, n)]
  | (k, m) :: ms => if k = name then (k, n) :: ms else (k, m) :: put name n ms

/-- Changes the table at the end of a path, which is made on the way. A dotted key does not enter a
table that has a header of its own. -/
def descend (dotted : Bool) (change : Origin → Members → Option Members) :
    List String → Origin → Members → Option Members
  | [], origin, ms => change origin ms
  | name :: path, _, ms =>
    match ms.lookup name with
    | none =>
      let origin := if dotted then .dotted else .implied
      (descend dotted change path origin []).map fun sub => ms.put name (.table origin sub)
    | some (.table origin sub) =>
      if dotted ∧ origin = .header then none
      else (descend dotted change path origin sub).map fun sub => ms.put name (.table origin sub)
    | some (.rows (last :: before)) =>
      (descend dotted change path .header last).map fun last => ms.put name (.rows (last :: before))
    | some _ => none

/-- A dotted name: the tables it leads through, and its last part. -/
structure Key where
  tables : List String
  name : String
deriving DecidableEq, Repr

/-- Adds a value under a dotted name. The table it goes to is one that dotted keys have made, unless
the name has no dots. -/
def Members.assign (k : Key) (v : Toml) (ms : Members) : Option Members :=
  descend true
    (fun origin ms =>
      if decide (origin = .dotted) = k.tables.isEmpty then none
      else if (ms.lookup k.name).isSome then none
      else some (ms ++ [(k.name, .value v)]))
    k.tables .header ms

/-- Opens the table of a header. One that was only implied so far is taken over. -/
def Members.openTable (k : Key) (ms : Members) : Option Members :=
  descend false
    (fun _ ms =>
      match ms.lookup k.name with
      | none => some (ms ++ [(k.name, .table .header [])])
      | some (.table .implied sub) => some (ms.put k.name (.table .header sub))
      | some _ => none)
    k.tables .header ms

/-- Opens another table of a row. -/
def Members.openRow (k : Key) (ms : Members) : Option Members :=
  descend false
    (fun _ ms =>
      match ms.lookup k.name with
      | none => some (ms ++ [(k.name, .rows [[]])])
      | some (.rows tables) => some (ms.put k.name (.rows ([] :: tables)))
      | some _ => none)
    k.tables .header ms

mutual

def Node.toToml : Node → Toml
  | .value v => v
  | .table _ ms => .table (membersToToml ms)
  | .rows tables => .array (rowsToToml tables).reverse

def membersToToml : List (String × Node) → List (String × Toml)
  | [] => []
  | (name, n) :: ms => (name, n.toToml) :: membersToToml ms

def rowsToToml : List (List (String × Node)) → List Toml
  | [] => []
  | ms :: rest => .table (membersToToml ms) :: rowsToToml rest

end

/-- The table that stands in braces on its own. -/
def inlineTable? (entries : List (Key × Toml)) : Option Toml :=
  (entries.foldlM (fun ms (k, v) => Members.assign k v ms) []).map fun ms =>
    .table (membersToToml ms)

end Foreman.Toml

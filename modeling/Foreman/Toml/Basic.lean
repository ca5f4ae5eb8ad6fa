import Foreman.Decimal.Binary64

/-!
# TOML values and records

A value stands for itself, however it was written. The members of a table are in no order that
matters, and no two of them share a name. A record stands in a document as a table, its fields found
by name, or as an array, its fields found by place.
-/

namespace Foreman

inductive Toml where
  | string (s : String)
  | integer (n : Int)
  | float (x : Binary64)
  | boolean (b : Bool)
  /-- A date, a time of day, or both. -/
  | moment (text : String)
  | array (items : List Toml)
  | table (members : List (String × Toml))

namespace Toml

def asText? : Toml → Option String
  | .string s => some s
  | _ => none

def asUInt64? : Toml → Option UInt64
  | .integer n => if 0 ≤ n ∧ n < UInt64.size then some (UInt64.ofNat n.toNat) else none
  | _ => none

def asTexts? : Toml → Option (List String)
  | .array vs => vs.mapM asText?
  | _ => none

/-- The one member of a moment that is looked at as a table. -/
def momentName : String := "$__toml_private_datetime"

/-- The members of what is looked at as a table. -/
def members? : Toml → Option (List (String × Toml))
  | .table ms => some ms
  | .moment text => some [(momentName, .string text)]
  | _ => none

/-- The fields of a record with these names. -/
def fields? (names : List String) : Toml → Option (List (String × Toml))
  | .array vs => some (names.zip vs)
  | v => members? v

/-- The value of a field, or `fallback` where it is missing. -/
def field? (fields : List (String × Toml)) (name : String) (fallback : α)
    (read : Toml → Option α) : Option α :=
  match fields.lookup name with
  | none => some fallback
  | some v => read v

end Toml

end Foreman

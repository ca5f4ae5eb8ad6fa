import Foreman.Json.Basic

namespace Foreman.Json

def asText? : Json → Option String
  | .string s => s
  | _ => none

def asUInt32? : Json → Option UInt32
  | .number n => n.toUInt32?
  | _ => none

def asUInt64? : Json → Option UInt64
  | .number n => n.toUInt64?
  | _ => none

def asBinary64? : Json → Option Binary64
  | .number n => n.toBinary64?
  | _ => none

def asList? (read : Json → Option α) : Json → Option (List α)
  | .array vs => vs.mapM read
  | _ => none

/-- A field that may hold `null` for nothing. -/
def orNull? (read : Json → Option α) : Json → Option (Option α)
  | .null => some none
  | v => (read v).map some

/-- The fields of a record that were found, and whether they were found by place. -/
structure Fields where
  placed : Bool
  values : List (String × Json)

/-- The members whose name is in `names`. A name that is no text spoils the record; a member of
another name is passed over. -/
def namedMembers? (names : List String) :
    List (Option String × Json) → Option (List (String × Json))
  | [] => some []
  | (none, _) :: _ => none
  | (some name, v) :: ms =>
    (namedMembers? names ms).map fun vs => if names.contains name then (name, v) :: vs else vs

/-- The fields of a record with these names, none of them twice. -/
def fields? (names : List String) : Json → Option Fields
  | .object ms => do
    let found ← namedMembers? names ms
    if (found.map (·.1)).Nodup then some ⟨false, found⟩ else none
  | .array vs => if vs.length ≤ names.length then some ⟨true, names.zip vs⟩ else none
  | _ => none

namespace Fields

def get? (fs : Fields) (name : String) : Option Json := fs.values.lookup name

/-- A field that must be there. -/
def required? (fs : Fields) (name : String) (read : Json → Option α) : Option α :=
  (fs.get? name).bind read

/-- A field that stands for `fallback` where it is missing. -/
def withDefault? (fs : Fields) (name : String) (fallback : α) (read : Json → Option α) :
    Option α :=
  match fs.get? name with
  | none => some fallback
  | some v => read v

/-- A field that may be missing, or `null`. -/
def optional? (fs : Fields) (name : String) (read : Json → Option α) : Option (Option α) :=
  fs.withDefault? name none (orNull? read)

/-- A field that may be `null`, and missing only where fields are found by name. -/
def nullable? (fs : Fields) (name : String) (read : Json → Option α) : Option (Option α) :=
  if fs.placed then fs.required? name (orNull? read) else fs.optional? name read

end Fields

end Foreman.Json

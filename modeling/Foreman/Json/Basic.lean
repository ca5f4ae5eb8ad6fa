import Foreman.Json.Number

namespace Foreman

/-- A document. A string that an escape for half a surrogate pair spoils is `string none`: it is
well formed, but no text. -/
inductive Json where
  | null
  | bool (b : Bool)
  | number (n : Json.Number)
  | string (s : Option String)
  | array (items : List Json)
  | object (members : List (Option String × Json))

namespace Json

def ofString (s : String) : Json := .string (some s)

def ofNat (n : Nat) : Json := .number (.ofNat n)

/-- What is no finite number is written as `null`. -/
def ofBinary64 (x : Binary64) : Json := ((Number.ofBinary64? x).map .number).getD .null

def ofOption (f : α → Json) : Option α → Json
  | none => .null
  | some a => f a

/-- An object whose members all have a name that is text. -/
def record (members : List (String × Json)) : Json :=
  .object (members.map fun (name, v) => (some name, v))

end Json

end Foreman

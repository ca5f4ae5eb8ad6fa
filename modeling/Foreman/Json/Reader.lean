import Foreman.Json.Basic

namespace Foreman.Json

def isSpace (c : Char) : Bool := c == ' ' || c == '\n' || c == '\t' || c == '\r'

def skipSpace (s : List Char) : List Char := s.dropWhile isSpace

/-- The character that a backslash and a letter stand for. -/
def escaped? : Char → Option Char
  | '"' => some '"'
  | '\\' => some '\\'
  | '/' => some '/'
  | 'b' => some '\x08'
  | 'f' => some '\x0c'
  | 'n' => some '\n'
  | 'r' => some '\r'
  | 't' => some '\t'
  | _ => none

def hexQuad? (a b c d : Char) : Option Nat := do
  let a ← Text.hexValue? a
  let b ← Text.hexValue? b
  let c ← Text.hexValue? c
  let d ← Text.hexValue? d
  return ((a * 16 + b) * 16 + c) * 16 + d

def consUnit (n : Nat) : Option (List Nat × List Char) → Option (List Nat × List Char)
  | some (ns, rest) => some (n :: ns, rest)
  | none => none

/-- The numbers of the characters and escapes up to the closing quote, and the text behind it. -/
def stringUnits : List Char → Option (List Nat × List Char)
  | [] => none
  | '"' :: r => some ([], r)
  | '\\' :: 'u' :: a :: b :: c :: d :: r =>
    match hexQuad? a b c d with
    | some n => consUnit n (stringUnits r)
    | none => none
  | '\\' :: e :: r =>
    match escaped? e with
    | some c => consUnit c.toNat (stringUnits r)
    | none => none
  | c :: r => if c.toNat < 0x20 then none else consUnit c.toNat (stringUnits r)

def isHighSurrogate (n : Nat) : Bool := 0xD800 ≤ n && n ≤ 0xDBFF

def isLowSurrogate (n : Nat) : Bool := 0xDC00 ≤ n && n ≤ 0xDFFF

/-- The characters that a row of numbers stands for: a high and a low surrogate make one, and either
of them alone makes none. -/
def assemble : List Nat → Option (List Char)
  | [] => some []
  | n :: ns =>
    if isHighSurrogate n then
      match ns with
      | m :: ms =>
        if isLowSurrogate m then
          (assemble ms).map (Char.ofNat (0x10000 + (n - 0xD800) * 0x400 + (m - 0xDC00)) :: ·)
        else none
      | [] => none
    else if isLowSurrogate n then none
    else (assemble ns).map (Char.ofNat n :: ·)

/-- A string, whose opening quote has been read. -/
def stringTail (s : List Char) : Option (Option String × List Char) :=
  (stringUnits s).map fun (ns, rest) => ((assemble ns).map String.ofList, rest)

def digitRun (s : List Char) : List Char × List Char :=
  (s.takeWhile Text.isDigit, s.dropWhile Text.isDigit)

/-- The digits before the point: a zero alone, or digits that begin with another one. -/
def wholePart? (s : List Char) : Option (List Char × List Char) :=
  match digitRun s with
  | ([], _) => none
  | ('0' :: _ :: _, _) => none
  | (ds, rest) => some (ds, rest)

def fractionPart? : List Char → Option (List Char × List Char)
  | '.' :: r =>
    match digitRun r with
    | ([], _) => none
    | (ds, rest) => some (ds, rest)
  | s => some ([], s)

def exponentDigits? (negative : Bool) (s : List Char) :
    Option (Option (Bool × List Char) × List Char) :=
  match digitRun s with
  | ([], _) => none
  | (ds, rest) => some (some (negative, ds), rest)

def exponentPart? : List Char → Option (Option (Bool × List Char) × List Char)
  | c :: r =>
    if c = 'e' ∨ c = 'E' then
      match r with
      | '+' :: r => exponentDigits? false r
      | '-' :: r => exponentDigits? true r
      | r => exponentDigits? false r
    else some (none, c :: r)
  | [] => some (none, [])

def unsigned? (negative : Bool) (s : List Char) : Option (Number × List Char) := do
  let (whole, s) ← wholePart? s
  let (fraction, s) ← fractionPart? s
  let (exponent, s) ← exponentPart? s
  return (⟨negative, whole, fraction, exponent⟩, s)

def number? : List Char → Option (Number × List Char)
  | '-' :: r => unsigned? true r
  | s => unsigned? false s

mutual

/-- A value at the very beginning of a text, and the text behind it. The first argument bounds how
many values may be read; the length of the text is always enough. -/
def value : Nat → List Char → Option (Json × List Char)
  | 0, _ => none
  | fuel + 1, s =>
    match s with
    | '\x7b' :: r =>
      match skipSpace r with
      | '\x7d' :: r => some (.object [], r)
      | r => (members fuel r).map fun (ms, r) => (.object ms, r)
    | '[' :: r =>
      match skipSpace r with
      | ']' :: r => some (.array [], r)
      | r => (items fuel r).map fun (vs, r) => (.array vs, r)
    | '"' :: r => (stringTail r).map fun (t, r) => (.string t, r)
    | 'n' :: 'u' :: 'l' :: 'l' :: r => some (.null, r)
    | 't' :: 'r' :: 'u' :: 'e' :: r => some (.bool true, r)
    | 'f' :: 'a' :: 'l' :: 's' :: 'e' :: r => some (.bool false, r)
    | s => (number? s).map fun (n, r) => (.number n, r)

/-- At least one element, and the closing bracket. -/
def items : Nat → List Char → Option (List Json × List Char)
  | 0, _ => none
  | fuel + 1, s => do
    let (v, r) ← value fuel (skipSpace s)
    match skipSpace r with
    | ',' :: r =>
      let (vs, r) ← items fuel r
      some (v :: vs, r)
    | ']' :: r => some ([v], r)
    | _ => none

/-- At least one member, and the closing brace. -/
def members : Nat → List Char → Option (List (Option String × Json) × List Char)
  | 0, _ => none
  | fuel + 1, s => do
    match skipSpace s with
    | '"' :: r =>
      let (name, r) ← stringTail r
      match skipSpace r with
      | ':' :: r =>
        let (v, r) ← value fuel (skipSpace r)
        match skipSpace r with
        | ',' :: r =>
          let (ms, r) ← members fuel r
          some ((name, v) :: ms, r)
        | '\x7d' :: r => some ([(name, v)], r)
        | _ => none
      | _ => none
    | _ => none

end

/-- The document that a text holds, with white space around it. -/
def parse? (s : List Char) : Option Json :=
  match value (s.length + 1) (skipSpace s) with
  | some (v, r) => if (skipSpace r).isEmpty then some v else none
  | none => none

end Foreman.Json

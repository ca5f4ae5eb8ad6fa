import Foreman.Text.Letter
import Foreman.Time.Instant
import Foreman.Toml.Basic

namespace Foreman.Toml

/-- The digits of a row in which single underscores may stand between digits. -/
def digits? (isDigit : Char → Bool) : List Char → Option (List Char)
  | [] => none
  | [c] => if isDigit c then some [c] else none
  | c :: '_' :: r => if isDigit c then (digits? isDigit r).map (c :: ·) else none
  | c :: r => if isDigit c then (digits? isDigit r).map (c :: ·) else none

/-- Decimal digits, of which the first of several is no zero. -/
def wholeDigits? (s : List Char) : Option (List Char) :=
  match digits? Text.isDigit s with
  | some ('0' :: _ :: _) => none
  | ds => ds

def valueIn (base : Nat) (ds : List Char) : Nat :=
  ds.foldl (fun n d => n * base + (Text.hexValue? d).getD 0) 0

def isOctalDigit (c : Char) : Bool := '0' ≤ c && c ≤ '7'

def isBinaryDigit (c : Char) : Bool := c == '0' || c == '1'

def isInteger (n : Int) : Bool := -(twoTo 127 : Int) ≤ n && n < twoTo 128

def ofInteger? (n : Int) : Option Toml := if isInteger n then some (.integer n) else none

/-- An integer; only a decimal one has a sign. -/
def integer? : List Char → Option Toml
  | '0' :: 'x' :: r => (digits? Text.isHexDigit r).bind fun ds => ofInteger? (valueIn 16 ds)
  | '0' :: 'o' :: r => (digits? isOctalDigit r).bind fun ds => ofInteger? (valueIn 8 ds)
  | '0' :: 'b' :: r => (digits? isBinaryDigit r).bind fun ds => ofInteger? (valueIn 2 ds)
  | '-' :: r => (wholeDigits? r).bind fun ds => ofInteger? (-(Text.digitsValue ds : Int))
  | '+' :: r => (wholeDigits? r).bind fun ds => ofInteger? (Text.digitsValue ds)
  | s => (wholeDigits? s).bind fun ds => ofInteger? (Text.digitsValue ds)

/-- A row of digits and underscores, and what stands behind it. -/
def digitRow (s : List Char) : List Char × List Char :=
  let inRow (c : Char) : Bool := Text.isDigit c || c == '_'
  (s.takeWhile inRow, s.dropWhile inRow)

/-- The exponent behind its letter. -/
def exponent? : List Char → Option Int
  | '-' :: r => (digits? Text.isDigit r).map fun ds => -(Text.digitsValue ds : Int)
  | '+' :: r => (digits? Text.isDigit r).map fun ds => (Text.digitsValue ds : Int)
  | s => (digits? Text.isDigit s).map fun ds => (Text.digitsValue ds : Int)

/-- The finite number that digits and a power of ten stand for. No power of ten is computed that
only makes it zero or too large. -/
def ofDigits? (negative : Bool) (ds : List Char) (exponent : Int) : Option Binary64 :=
  let ds := ds.dropWhile (· == '0')
  if ds.isEmpty || (ds.length : Int) + exponent < -400 then some (.ofParts negative 0)
  else if (ds.length : Int) + exponent > 310 then none
  else
    let x := Binary64.ofDecimal negative (Text.digitsValue ds) exponent
    if x.isFinite then some x else none

/-- A number that has a point or an exponent. -/
def unsignedFloat? (negative : Bool) (s : List Char) : Option Binary64 := do
  let (whole, r) := digitRow s
  let whole ← wholeDigits? whole
  let (fraction, r) ←
    match r with
    | '.' :: r =>
      let (fraction, r) := digitRow r
      (digits? Text.isDigit fraction).map fun ds => (ds, r)
    | r => some ([], r)
  let exponent ←
    match r with
    | [] => if fraction.isEmpty then none else some 0
    | c :: r => if c = 'e' ∨ c = 'E' then exponent? r else none
  ofDigits? negative (whole ++ fraction) (exponent - fraction.length)

def notNumber : Nat := Binary64.infinity + twoTo 51

def signedFloat? (negative : Bool) (s : List Char) : Option Binary64 :=
  if s = "inf".toList then some (.ofParts negative Binary64.infinity)
  else if s = "nan".toList then some (.ofParts negative notNumber)
  else unsignedFloat? negative s

def float? : List Char → Option Toml
  | '-' :: r => (signedFloat? true r).map .float
  | '+' :: r => (signedFloat? false r).map .float
  | s => (signedFloat? false s).map .float

/-- A number of so many digits. -/
def fixed? (width : Nat) (s : List Char) : Option (Nat × List Char) :=
  let ds := s.take width
  if ds.length = width && ds.all Text.isDigit then some (Text.digitsValue ds, s.drop width)
  else none

def char? (c : Char) : List Char → Option (List Char)
  | d :: r => if d = c then some r else none
  | [] => none

/-- What stands behind a date. -/
def afterDate? (s : List Char) : Option (List Char) := do
  let (year, s) ← fixed? 4 s
  let s ← char? '-' s
  let (month, s) ← fixed? 2 s
  let s ← char? '-' s
  let (day, s) ← fixed? 2 s
  if isDate year month day then some s else none

/-- What stands behind a fraction of a second, if there is one. -/
def afterFraction? : List Char → Option (List Char)
  | '.' :: r => if r.head?.any Text.isDigit then some (r.dropWhile Text.isDigit) else none
  | s => some s

/-- What stands behind a time of day; it may do without seconds. -/
def afterTime? (s : List Char) : Option (List Char) := do
  let (hour, s) ← fixed? 2 s
  let s ← char? ':' s
  let (minute, s) ← fixed? 2 s
  if 23 < hour ∨ 59 < minute then none
  else
    match s with
    | ':' :: r =>
      let (second, r) ← fixed? 2 r
      if 60 < second then none else afterFraction? r
    | s => some s

/-- Whether this is the offset from universal time, or none. -/
def isOffset : List Char → Bool
  | [] | ['Z'] | ['z'] => true
  | c :: r =>
    (c = '+' || c = '-') &&
      (match fixed? 2 r with
        | some (hour, ':' :: r) =>
          (match fixed? 2 r with
            | some (minute, []) => hour ≤ 23 && minute ≤ 59
            | _ => false)
        | _ => false)

def isMoment (s : List Char) : Bool :=
  match afterDate? s with
  | some [] => true
  | some (c :: r) =>
    (c = 'T' || c = 't' || c = ' ') &&
      (match afterTime? r with
        | some r => isOffset r
        | none => false)
  | none => afterTime? s = some []

/-- Date and time with capital letters between and behind them. -/
def tidyMoment (s : List Char) : String :=
  String.ofList (s.map fun c => if c = ' ' || c = 't' then 'T' else if c = 'z' then 'Z' else c)

def moment? (s : List Char) : Option Toml :=
  if isMoment s then some (.moment (tidyMoment s)) else none

def ofScalar? (s : List Char) : Option Toml :=
  if s = "true".toList then some (.boolean true)
  else if s = "false".toList then some (.boolean false)
  else
    match integer? s with
    | some v => some v
    | none =>
      match float? s with
      | some v => some v
      | none => moment? s

def isScalarChar (c : Char) : Bool :=
  Text.isAlphanumericAscii c || c == '+' || c == '-' || c == '_' || c == '.' || c == ':'

/-- Whether a time of day follows on a date, behind a space. -/
def timeFollows (row rest : List Char) : Bool :=
  afterDate? row = some [] &&
    (match rest with
      | ' ' :: c :: _ => Text.isDigit c
      | _ => false)

/-- A scalar and what stands behind it. -/
def scalar? (s : List Char) : Option (Toml × List Char) :=
  let row := s.takeWhile isScalarChar
  let rest := s.dropWhile isScalarChar
  if timeFollows row rest then
    let time := (rest.drop 1).takeWhile isScalarChar
    (ofScalar? (row ++ ' ' :: time)).map fun v => (v, (rest.drop 1).dropWhile isScalarChar)
  else (ofScalar? row).map fun v => (v, rest)

end Foreman.Toml

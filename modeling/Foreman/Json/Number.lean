import Foreman.Decimal.Shortest
import Foreman.Text.Letter

/-!
# Numbers of JSON documents

A number is kept as it is written. What it stands for depends on who reads it: a count takes plain
digits only, an amount takes any form.
-/

namespace Foreman.Json

/-- The digits before and behind the point, and the digits of the exponent with its sign. No digit
behind the point means that there is no point. -/
structure Number where
  negative : Bool
  whole : List Char
  fraction : List Char
  exponent : Option (Bool × List Char)
deriving DecidableEq, Repr

namespace Number

def render (n : Number) : List Char :=
  (if n.negative then ['-'] else []) ++ n.whole ++
    (if n.fraction.isEmpty then [] else '.' :: n.fraction) ++
    (match n.exponent with
      | none => []
      | some (negative, ds) => 'e' :: (if negative then '-' else '+') :: ds)

def ofNat (n : Nat) : Number := ⟨false, Text.ofNat n, [], none⟩

/-- A number without sign, point and exponent. -/
def toNat? (n : Number) : Option Nat :=
  if n.negative || !n.fraction.isEmpty || n.exponent.isSome then none
  else some (Text.digitsValue n.whole)

def toUInt64? (n : Number) : Option UInt64 :=
  n.toNat?.bind fun v => if v < UInt64.size then some (UInt64.ofNat v) else none

def toUInt32? (n : Number) : Option UInt32 :=
  n.toNat?.bind fun v => if v < UInt32.size then some (UInt32.ofNat v) else none

/-- Appends digits to a significand as long as it fits in 64 bits; also how many are left. -/
def appendDigits : Nat → List Char → Nat × Nat
  | v, [] => (v, 0)
  | v, d :: ds =>
    let next := v * 10 + (d.toNat - '0'.toNat)
    if next < UInt64.size then appendDigits next ds else (v, ds.length + 1)

def powerOfTen (k : Nat) : Nat := Binary64.nearest (tenTo k) 1

/-- The magnitude `w` times a power of ten, rounded at each step, unless that is too large. A
magnitude that comes from 64 bits is zero after two divisions by `10 ^ 308`. -/
def scale (w : Nat) (exponent : Int) : Nat → Option Nat
  | 0 => some 0
  | n + 1 =>
    if exponent.natAbs ≤ 308 then
      if exponent < 0 then some (Binary64.div w (powerOfTen exponent.natAbs))
      else
        let r := Binary64.mul w (powerOfTen exponent.natAbs)
        if r < Binary64.infinity then some r else none
    else if w = 0 then some 0
    else if exponent < 0 then scale (Binary64.div w (powerOfTen 308)) (exponent + 308) n
    else none

/-- The amount that a number stands for: the leading digits that fit in 64 bits, scaled by the power
of ten that the point and the exponent name. There is none beyond the largest finite one. -/
def toBinary64? (n : Number) : Option Binary64 :=
  let (high, dropped) := appendDigits 0 n.whole
  let (significand, unread) := appendDigits high n.fraction
  let point : Int := (dropped : Int) + unread - n.fraction.length
  let w := Binary64.nearest significand 1
  let scaled : Option Nat :=
    match n.exponent with
    | none => scale w point 4
    | some (negative, ds) =>
      let e := Text.digitsValue ds
      if e < twoTo 31 then scale w (if negative then point - e else point + e) 4
      else if significand = 0 ∨ negative then some 0
      else none
  scaled.map (Binary64.ofParts n.negative)

/-- How an amount is written: from `10 ^ -5` to below `10 ^ 16` the point stands among the digits,
beyond that an exponent follows the first digit. A whole amount ends in `.0`. -/
def layout (negative : Bool) (digits : List Char) (exponent : Int) : Number :=
  let point := digits.length + exponent
  if 0 ≤ exponent ∧ point ≤ 16 then
    ⟨negative, digits ++ List.replicate exponent.toNat '0', ['0'], none⟩
  else if 0 < point ∧ point ≤ 16 then
    ⟨negative, digits.take point.toNat, digits.drop point.toNat, none⟩
  else if -5 < point ∧ point ≤ 0 then
    ⟨negative, ['0'], List.replicate (-point).toNat '0' ++ digits, none⟩
  else
    ⟨negative, digits.take 1, digits.drop 1,
      some (decide (point - 1 < 0), Text.ofNat (point - 1).natAbs)⟩

/-- A finite amount in the fewest digits that read back. -/
def ofBinary64? (x : Binary64) : Option Number :=
  if !x.isFinite then none
  else if x.magnitude = 0 then some ⟨x.negative, ['0'], ['0'], none⟩
  else
    (Decimal.shortest? x.magnitude).map fun d =>
      layout x.negative (Text.ofNat d.digits) d.exponent

end Number

end Foreman.Json

/-!
# Double-precision numbers

A number is kept as its 64 bits. The word without the sign bit is its *magnitude*; a finite
magnitude stands for `m * 2 ^ e`, and arithmetic rounds the exact quotient of two natural numbers
once, to the nearest magnitude, ties to the even one.
-/

namespace Foreman

def twoTo (n : Nat) : Nat := Nat.pow 2 n

def tenTo (n : Nat) : Nat := Nat.pow 10 n

structure Binary64 where
  bits : UInt64
deriving DecidableEq, Repr

namespace Binary64

/-- The magnitude of infinity; those above it are not numbers. -/
def infinity : Nat := 2047 * twoTo 52

/-- The number with a sign and a magnitude below `2 ^ 63`. -/
def ofParts (negative : Bool) (magnitude : Nat) : Binary64 :=
  ⟨UInt64.ofNat (magnitude + if negative then twoTo 63 else 0)⟩

def negative (x : Binary64) : Bool := decide (twoTo 63 ≤ x.bits.toNat)

def magnitude (x : Binary64) : Nat := x.bits.toNat % twoTo 63

def isFinite (x : Binary64) : Bool := decide (x.magnitude < infinity)

/-- The `m` and `e` of a finite magnitude `m * 2 ^ e`. -/
def decode (w : Nat) : Nat × Int :=
  let field : Nat := w / twoTo 52
  let fraction : Nat := w % twoTo 52
  if field = 0 then (fraction, -1074) else (twoTo 52 + fraction, (field : Int) - 1075)

/-- A finite magnitude as a fraction. -/
def ratio (w : Nat) : Nat × Nat :=
  let (m, e) := decode w
  (m * twoTo e.toNat, twoTo (-e).toNat)

/-- `num / den` to the nearest natural number, a half to the even one. -/
def roundDiv (num den : Nat) : Nat :=
  let q := num / den
  let twice := 2 * (num % den)
  if twice > den ∨ (twice = den ∧ q % 2 = 1) then q + 1 else q

/-- The quotient `num / (den * 2 ^ e)`, rounded. -/
def scaled (num den : Nat) (e : Int) : Nat :=
  roundDiv (num * twoTo (-e).toNat) (den * twoTo e.toNat)

/-- The magnitude nearest to `num / den`, or `infinity` where that is too large. Consecutive
magnitudes are consecutive words, so a quotient that rounds up to `2 ^ 53` needs no care. -/
def nearest (num den : Nat) : Nat :=
  if num = 0 then 0
  else
    let low : Int := (num.log2 : Int) - den.log2 - 53
    let fits := num * twoTo (-low).toNat < twoTo 53 * (den * twoTo low.toNat)
    let e := max (if fits then low else low + 1) (-1074)
    min infinity ((e + 1074).toNat * twoTo 52 + scaled num den e)

def mul (v w : Nat) : Nat :=
  let (a, b) := ratio v
  let (c, d) := ratio w
  nearest (a * c) (b * d)

def div (v w : Nat) : Nat :=
  let (a, b) := ratio v
  let (c, d) := ratio w
  nearest (a * d) (b * c)

/-- The number nearest to `digits * 10 ^ exponent`. -/
def ofDecimal (negative : Bool) (digits : Nat) (exponent : Int) : Binary64 :=
  ofParts negative (nearest (digits * tenTo exponent.toNat) (tenTo (-exponent).toNat))

end Binary64

end Foreman

import Foreman.Decimal.Binary64

/-!
# Shortest decimals

The reals that round to a finite magnitude form an interval. Of the decimals in it, `shortest?`
takes one with the fewest digits, and of those the nearest.
-/

namespace Foreman

/-- The value `digits * 10 ^ exponent`. -/
structure Decimal where
  digits : Nat
  exponent : Int
deriving DecidableEq, Repr

namespace Decimal

/-- How `d` compares with `n * 2 ^ e`. -/
def compareBinary (d : Decimal) (n : Nat) (e : Int) : Ordering :=
  compare (d.digits * tenTo d.exponent.toNat * twoTo (-e).toNat)
    (n * twoTo e.toNat * tenTo (-d.exponent).toNat)

/-- Whether `d` rounds to the magnitude `w`. The gap below a power of two is half as wide as the gap
above it, and a halfway point belongs to the even neighbour. -/
def roundsTo (d : Decimal) (w : Nat) : Bool :=
  let (m, e) := Binary64.decode w
  let below := if w % twoTo 52 = 0 ∧ w / twoTo 52 > 1 then 4 * m - 1 else 4 * m - 2
  let lower := d.compareBinary below (e - 2)
  let upper := d.compareBinary (4 * m + 2) (e - 2)
  if m % 2 = 0 then lower != .lt && upper != .gt else lower == .gt && upper == .lt

/-- Of two decimals with the same exponent around `w`, the nearer one, on a tie the even one. -/
def nearer (low high : Decimal) (w : Nat) : Decimal :=
  let (m, e) := Binary64.decode w
  match compareBinary ⟨low.digits + high.digits, low.exponent⟩ m (e + 1) with
  | .gt => low
  | .lt => high
  | .eq => if low.digits % 2 = 0 then low else high

/-- The decimal with this exponent that rounds to `w`, if there is one. -/
def onGrid? (w : Nat) (exponent : Int) : Option Decimal :=
  let (num, den) := Binary64.ratio w
  let low : Decimal :=
    ⟨num * tenTo (-exponent).toNat / (den * tenTo exponent.toNat), exponent⟩
  let high : Decimal := ⟨low.digits + 1, exponent⟩
  match low.digits != 0 && low.roundsTo w, high.roundsTo w with
  | true, true => some (low.nearer high w)
  | true, false => some low
  | false, true => some high
  | false, false => none

/-- The first decimal found on ever finer grids. -/
def search (w : Nat) (exponent : Int) : Nat → Option Decimal
  | 0 => none
  | n + 1 =>
    match onGrid? w exponent with
    | some d => some d
    | none => search w (exponent - 1) n

/-- Moves the zeros at the end of the digits into the exponent. -/
def strip (d : Decimal) : Nat → Decimal
  | 0 => d
  | n + 1 => if d.digits % 10 = 0 then strip ⟨d.digits / 10, d.exponent + 1⟩ n else d

/-- The shortest decimal that rounds to a finite magnitude other than zero. The first grid is
coarser than the number; the last one holds seventeen digits, which always suffice. -/
def shortest? (w : Nat) : Option Decimal :=
  let (m, e) := Binary64.decode w
  let magnitude := ((m.log2 : Int) + e) * 30103 / 100000
  (search w (magnitude + 1) 20).map (strip · 20)

end Decimal

end Foreman

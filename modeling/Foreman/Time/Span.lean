import Foreman.Decimal.Binary64
import Foreman.Text.Letter

namespace Foreman

structure Span where
  nanos : Nat
deriving DecidableEq, Repr

namespace Span

def seconds (t : Span) : Nat := t.nanos / 1000000000

def millis (t : Span) : Nat := t.nanos / 1000000

/-- Digits behind a decimal point, without the zeros at their end. -/
def fraction (width n : Nat) : List Char :=
  let ds := ((Text.padded width n).reverse.dropWhile (· == '0')).reverse
  if ds.isEmpty then [] else '.' :: ds

/-- The span in a unit of `10 ^ places` nanoseconds. -/
def inUnit (t : Span) (places : Nat) (unit : String) : String :=
  let size := tenTo places
  String.ofList (Text.ofNat (t.nanos / size) ++ fraction places (t.nanos % size)) ++ unit

def text (t : Span) : String :=
  if t.nanos ≥ 1000000000 then t.inUnit 9 "s"
  else if t.nanos ≥ 1000000 then t.inUnit 6 "ms"
  else if t.nanos ≥ 1000 then t.inUnit 3 "µs"
  else t.inUnit 0 "ns"

end Span

end Foreman

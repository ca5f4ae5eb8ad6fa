/-!
# Bytes that should be UTF-8

Bytes become text one after another. Where they stop being UTF-8, each longest piece that begins a
character but does not end one, and each byte that begins none, becomes one replacement character.
-/

namespace Foreman.Text

def replacementCharacter : Char := '\ufffd'

/-- Where a reader stands: between characters, or in one, with the number of bytes that are missing,
the range of the next byte, and the bits read so far. -/
inductive Utf8State where
  | between
  | inside (missing : Nat) (low high : UInt8) (bits : Nat)
deriving DecidableEq, Repr

namespace Utf8State

/-- The state behind the first byte of a character of several bytes. -/
def first? (b : UInt8) : Option Utf8State :=
  if 0xC2 ≤ b ∧ b ≤ 0xDF then some (.inside 1 0x80 0xBF (b.toNat % 32))
  else if b = 0xE0 then some (.inside 2 0xA0 0xBF 0)
  else if b = 0xED then some (.inside 2 0x80 0x9F 13)
  else if 0xE1 ≤ b ∧ b ≤ 0xEF then some (.inside 2 0x80 0xBF (b.toNat % 16))
  else if b = 0xF0 then some (.inside 3 0x90 0xBF 0)
  else if 0xF1 ≤ b ∧ b ≤ 0xF3 then some (.inside 3 0x80 0xBF (b.toNat % 8))
  else if b = 0xF4 then some (.inside 3 0x80 0x8F 4)
  else none

/-- A byte that stands at the beginning of a character: the new state and what is known now. -/
def begin (b : UInt8) : Utf8State × List Char :=
  if b < 0x80 then (.between, [Char.ofNat b.toNat])
  else
    match first? b with
    | some s => (s, [])
    | none => (.between, [replacementCharacter])

/-- The next byte. -/
def step (s : Utf8State) (b : UInt8) : Utf8State × List Char :=
  match s with
  | between => begin b
  | inside missing low high bits =>
    if low ≤ b ∧ b ≤ high then
      let bits := bits * 64 + b.toNat % 64
      if missing ≤ 1 then (.between, [Char.ofNat bits])
      else (.inside (missing - 1) 0x80 0xBF bits, [])
    else
      let (s, cs) := begin b
      (s, replacementCharacter :: cs)

/-- What the end of the bytes adds. -/
def finish : Utf8State → List Char
  | between => []
  | inside .. => [replacementCharacter]

end Utf8State

/-- The text that bytes stand for. -/
def ofBytes (bs : List UInt8) : String :=
  let (s, reversed) := bs.foldl
    (fun (s, reversed) b =>
      let (s, cs) := Utf8State.step s b
      (s, cs.reverse ++ reversed))
    (Utf8State.between, [])
  String.ofList (s.finish.reverse ++ reversed).reverse

end Foreman.Text

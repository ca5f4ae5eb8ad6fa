import Foreman.Text.Letter

/-!
# Quoted texts

A text stands in double or in single quotes, three of them if it runs over several lines. In single
quotes every character stands for itself; in double quotes a backslash escapes what cannot stand
there. The writer takes the first of four styles that needs no escape.
-/

namespace Foreman.Toml

/-- A character that stands in no text as it is. -/
def isControl (c : Char) : Bool := (c.toNat < 0x20 && c != '\t') || c.toNat == 0x7F

def isMargin (c : Char) : Bool := c == ' ' || c == '\t'

def skipMargin (s : List Char) : List Char := s.dropWhile isMargin

/-- Whether an end of line comes first. -/
def atLineEnd : List Char → Bool
  | '\n' :: _ | '\r' :: '\n' :: _ => true
  | _ => false

namespace Quoted

inductive Style where
  | basic
  | literal
  | basicBlock
  | literalBlock
deriving DecidableEq, Repr

/-- `runFrom q run s` is the length of the longest row of `q`, of which `run` stand before `s`. -/
def runFrom (q : Char) : Nat → List Char → Nat
  | run, [] => run
  | run, c :: r => if c = q then runFrom q (run + 1) r else max run (runFrom q 0 r)

def longestRun (q : Char) (s : List Char) : Nat := runFrom q 0 s

/-- How many quotes in a row may stand in a text of several lines. -/
def blockLimit : Nat := 2

def Style.of (s : List Char) : Style :=
  let plain := !s.any fun c => isControl c && c != '\n'
  let unescaped := plain && !s.contains '\\'
  let oneLine := !s.contains '\n'
  if unescaped && oneLine && longestRun '"' s = 0 then .basic
  else if plain && oneLine && longestRun '\'' s = 0 then .literal
  else if unescaped && longestRun '"' s ≤ blockLimit then .basicBlock
  else if plain && longestRun '\'' s ≤ blockLimit then .literalBlock
  else if oneLine then .basic
  else .basicBlock

def hexDigits (n : Nat) : List Char := (Nat.toDigits 16 n).map Char.toUpper

/-- Four hexadecimal digits. -/
def hexQuad (n : Nat) : List Char :=
  let ds := hexDigits n
  List.replicate (4 - ds.length) '0' ++ ds

/-- A character other than a double quote, as it is written in double quotes. -/
def escape (block : Bool) (c : Char) : List Char :=
  if c = '\x08' then ['\\', 'b']
  else if c = '\t' then ['\\', 't']
  else if c = '\n' then if block then ['\n'] else ['\\', 'n']
  else if c = '\x0c' then ['\\', 'f']
  else if c = '\r' then ['\\', 'r']
  else if c = '\\' then ['\\', '\\']
  else if isControl c then '\\' :: 'u' :: hexQuad c.toNat
  else [c]

/-- A text in double quotes; `run` quotes have been written since the last other character. -/
def escapeFrom (block : Bool) : Nat → List Char → List Char
  | _, [] => []
  | run, c :: r =>
    if c = '"' then
      if block && run < blockLimit then '"' :: escapeFrom block (run + 1) r
      else '\\' :: '"' :: escapeFrom block 0 r
    else escape block c ++ escapeFrom block 0 r

def fence (q : Char) : List Char := [q, q, q]

/-- An end of line that stands right behind the opening quotes is not part of the text. -/
def opening (s : List Char) : List Char := if s.contains '\n' then ['\n'] else []

def Style.write (s : List Char) : Style → List Char
  | basic => '"' :: escapeFrom false 0 s ++ ['"']
  | literal => '\'' :: s ++ ['\'']
  | basicBlock => fence '"' ++ opening s ++ escapeFrom true 0 s ++ fence '"'
  | literalBlock => fence '\'' ++ opening s ++ s ++ fence '\''

/-- A text in quotes. -/
def write (s : List Char) : List Char := (Style.of s).write s

/-- What a letter stands for behind a backslash. -/
def escaped? : Char → Option Char
  | 'b' => some '\x08'
  | 't' => some '\t'
  | 'n' => some '\n'
  | 'f' => some '\x0c'
  | 'r' => some '\r'
  | 'e' => some '\x1b'
  | '"' => some '"'
  | '\\' => some '\\'
  | _ => none

/-- The character with a code point in hexadecimal digits; half a surrogate pair is none. -/
def coded? (ds : List Char) : Option Char := do
  let n ← ds.foldlM (fun n d => (Text.hexValue? d).map (n * 16 + ·)) 0
  if n.isValidChar then some (Char.ofNat n) else none

def consChar (c : Option Char) (tail : Option (List Char × List Char)) :
    Option (List Char × List Char) :=
  match c, tail with
  | some c, some (cs, rest) => some (c :: cs, rest)
  | _, _ => none

/-- Where a reader of double-quoted text stands: in a text of one line or of several, or behind a
backslash that ends its line, where blanks and ends of lines are passed over. -/
inductive Place where
  | line
  | block
  | margin
deriving DecidableEq

def Place.next : Place → Place
  | line => line
  | block | margin => block

/-- Whether a line ends with the backslash that stands before this text. -/
def continues (p : Place) (s : List Char) : Bool := p ≠ .line && atLineEnd (skipMargin s)

/-- A text up to the double quotes that end it, and what stands behind them. -/
def basicTail : Place → List Char → Option (List Char × List Char)
  | _, [] => none
  | p, '"' :: r =>
    match p, r with
    | .line, r => some ([], r)
    | _, '"' :: '"' :: '"' :: '"' :: r => some (['"', '"'], r)
    | _, '"' :: '"' :: '"' :: r => some (['"'], r)
    | _, '"' :: '"' :: r => some ([], r)
    | _, r => consChar '"' (basicTail .block r)
  | p, '\\' :: 'x' :: a :: b :: r => consChar (coded? [a, b]) (basicTail p.next r)
  | p, '\\' :: 'u' :: a :: b :: c :: d :: r => consChar (coded? [a, b, c, d]) (basicTail p.next r)
  | p, '\\' :: 'U' :: a :: b :: c :: d :: e :: f :: g :: h :: r =>
    consChar (coded? [a, b, c, d, e, f, g, h]) (basicTail p.next r)
  | p, '\\' :: e :: r =>
    if continues p (e :: r) then basicTail .margin (e :: r)
    else consChar (escaped? e) (basicTail p.next r)
  | p, '\r' :: '\n' :: r =>
    match p with
    | .line => none
    | .margin => basicTail .margin r
    | .block => consChar '\r' (consChar '\n' (basicTail .block r))
  | p, '\n' :: r =>
    match p with
    | .line => none
    | .margin => basicTail .margin r
    | .block => consChar '\n' (basicTail .block r)
  | p, c :: r =>
    if isControl c then none
    else if p = .margin && isMargin c then basicTail .margin r
    else consChar c (basicTail p.next r)

/-- A text up to the single quote that ends it. -/
def literalTail : List Char → Option (List Char × List Char)
  | [] => none
  | '\'' :: r => some ([], r)
  | c :: r => if isControl c then none else consChar c (literalTail r)

/-- A text up to the three single quotes that end it. -/
def literalBlockTail : List Char → Option (List Char × List Char)
  | [] => none
  | '\'' :: '\'' :: '\'' :: '\'' :: '\'' :: r => some (['\'', '\''], r)
  | '\'' :: '\'' :: '\'' :: '\'' :: r => some (['\''], r)
  | '\'' :: '\'' :: '\'' :: r => some ([], r)
  | '\r' :: '\n' :: r => consChar '\r' (consChar '\n' (literalBlockTail r))
  | c :: r => if isControl c && c != '\n' then none else consChar c (literalBlockTail r)

/-- Drops the end of line behind the opening quotes. -/
def dropOpening : List Char → List Char
  | '\n' :: r | '\r' :: '\n' :: r => r
  | s => s

/-- A text in quotes and what stands behind it. -/
def read? : List Char → Option (List Char × List Char)
  | '"' :: '"' :: '"' :: r => basicTail .block (dropOpening r)
  | '"' :: r => basicTail .line r
  | '\'' :: '\'' :: '\'' :: r => literalBlockTail (dropOpening r)
  | '\'' :: r => literalTail r
  | _ => none

end Quoted

end Foreman.Toml

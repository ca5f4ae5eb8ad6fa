import Foreman.Text.Blank
import Foreman.Text.Letter
import Foreman.Text.Word

/-!
# Credential patterns

A credential begins at a word boundary with letters that give it away. Each part of a pattern takes
all the characters it can, and no part takes the character with which the next one begins, so that a
pattern matches at a place in one way at most.
-/

namespace Foreman.Redaction

/-- At least `least` characters of a kind, as many as there are; or exactly one. -/
inductive Part where
  | one (accepts : Char → Bool)
  | run (accepts : Char → Bool) (least : Nat)

/-- How many characters a part takes. -/
def Part.length? : Part → List Char → Option Nat
  | .one accepts, c :: _ => if accepts c then some 1 else none
  | .one _, [] => none
  | .run accepts least, s =>
    let n := (s.takeWhile accepts).length
    if n < least then none else some n

abbrev Pattern := List Part

namespace Pattern

def literal (s : String) : Pattern := s.toList.map fun c => .one (· == c)

/-- The letters of a word in either case. -/
def anyCase (s : String) : Pattern := s.toList.map fun c => .one fun d => Text.lowerChar d == c

/-- How many characters the parts take one after another. -/
def length? : Pattern → List Char → Option Nat
  | [], _ => some 0
  | p :: ps, s => do
    let n ← p.length? s
    let m ← length? ps (s.drop n)
    return n + m

/-- Whether a word may begin behind a character, or at the beginning of a text. -/
def atBoundary : Option Char → Bool
  | none => true
  | some c => !Text.isWord c

/-- The characters of a credential at this place, given the character before it. -/
def matchAt? (p : Pattern) (before : Option Char) (s : List Char) : Option Nat :=
  if atBoundary before then p.length? s else none

/-- `substituteFrom p by before skip s` drops the first `skip` characters of `s`, then replaces. -/
def substituteFrom (p : Pattern) (replacement : List Char) :
    Option Char → Nat → List Char → List Char
  | _, _, [] => []
  | _, skip + 1, c :: r => substituteFrom p replacement (some c) skip r
  | before, 0, c :: r =>
    match p.matchAt? before (c :: r) with
    | some n => replacement ++ substituteFrom p replacement (some c) (n - 1) r
    | none => c :: substituteFrom p replacement (some c) 0 r

/-- The text with `replacement` in place of every match, from left to right. -/
def substitute (p : Pattern) (replacement s : List Char) : List Char :=
  substituteFrom p replacement none 0 s

def isKeyChar (c : Char) : Bool := Text.isAlphanumericAscii c || c == '-' || c == '_'

/-- The characters of a bearer token. Under a comparison that ignores case the long s and the Kelvin
sign are letters of it too. -/
def isBearerChar (c : Char) : Bool :=
  Text.isAlphanumericAscii c || ['.', '_', '~', '+', '/', '=', '-'].contains c || c == 'ſ' ||
    c == '\u212a'

/-- An authorization header. -/
def bearer : Pattern := anyCase "bearer" ++ [.run Text.isBlank 1, .run isBearerChar 8]

def vendorKey : Pattern := literal "sk-" ++ [.run isKeyChar 16]

def hostToken : Pattern :=
  literal "gh" ++ [.one "pousr".toList.contains] ++ literal "_" ++
    [.run Text.isAlphanumericAscii 20]

def hostAccessToken : Pattern :=
  literal "github_pat_" ++ [.run (fun c => Text.isAlphanumericAscii c || c == '_') 20]

def chatToken : Pattern :=
  literal "xox" ++ [.one "abprs".toList.contains] ++ literal "-" ++
    [.run (fun c => Text.isAlphanumericAscii c || c == '-') 10]

/-- Three encoded parts joined by points, the first beginning like an encoded object. -/
def webToken : Pattern :=
  literal "eyJ" ++ [.run isKeyChar 5] ++ literal "." ++ [.run isKeyChar 5] ++ literal "." ++
    [.run isKeyChar 5]

/-- The patterns in the order in which they are replaced. -/
def all : List Pattern := [bearer, vendorKey, hostToken, hostAccessToken, chatToken, webToken]

end Pattern

end Foreman.Redaction

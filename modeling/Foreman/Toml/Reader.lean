import Foreman.Toml.Quoted
import Foreman.Toml.Scalar
import Foreman.Toml.Table

namespace Foreman.Toml

/-- Passes over blanks, ends of lines and comments; the flag says whether a comment is read. -/
def skipGap : Bool → List Char → Option (List Char)
  | _, [] => some []
  | _, '\n' :: r => skipGap false r
  | _, '\r' :: '\n' :: r => skipGap false r
  | true, c :: r => if isControl c then none else skipGap true r
  | false, '#' :: r => skipGap true r
  | false, c :: r => if isMargin c then skipGap false r else some (c :: r)

def isKeyChar (c : Char) : Bool := Text.isAlphanumericAscii c || c == '-' || c == '_'

/-- One part of a key, and what stands behind it. -/
def keyPart? : List Char → Option (String × List Char)
  | '"' :: r => (Quoted.basicTail .line r).map fun (k, r) => (String.ofList k, r)
  | '\'' :: r => (Quoted.literalTail r).map fun (k, r) => (String.ofList k, r)
  | s =>
    match s.takeWhile isKeyChar with
    | [] => none
    | k => some (String.ofList k, s.dropWhile isKeyChar)

/-- The parts of a key with points between them, behind `before`, and what follows on blanks. -/
def keyParts : Nat → List String → List Char → Option (Key × List Char)
  | 0, _, _ => none
  | fuel + 1, before, s => do
    let (name, r) ← keyPart? (skipMargin s)
    match skipMargin r with
    | '.' :: r => keyParts fuel (before ++ [name]) r
    | r => some (⟨before, name⟩, r)

def key? (s : List Char) : Option (Key × List Char) := keyParts (s.length + 1) [] s

/-- How values are read inside of brackets and braces. -/
abbrev Read := List Char → Option (Toml × List Char)

/-- A key, its value, and what stands behind them. -/
def assignment? (read : Read) (s : List Char) : Option ((Key × Toml) × List Char) := do
  let (k, r) ← key? s
  match r with
  | '=' :: r =>
    let (v, r) ← read (skipMargin r)
    some ((k, v), r)
  | _ => none

/-- Elements up to a closing character, with commas between them and perhaps behind the last. -/
def elements (closing : Char) (read : List Char → Option (α × List Char)) :
    Nat → List Char → Option (List α × List Char)
  | 0, _ => none
  | fuel + 1, s => do
    match ← skipGap false s with
    | [] => none
    | c :: r =>
      if c = closing then some ([], r)
      else
        let (a, r) ← read (c :: r)
        match ← skipGap false r with
        | [] => none
        | c :: r =>
          if c = closing then some ([a], r)
          else if c = ',' then
            let (rest, r) ← elements closing read fuel r
            some (a :: rest, r)
          else none

def array? (read : Read) (s : List Char) : Option (Toml × List Char) :=
  (elements ']' read (s.length + 1) s).map fun (vs, r) => (.array vs, r)

def braces? (read : Read) (s : List Char) : Option (Toml × List Char) := do
  let (entries, r) ← elements '\x7d' (assignment? read) (s.length + 1) s
  let t ← inlineTable? entries
  some (t, r)

/-- A value, and what stands behind it. Brackets and braces go at most so deep. -/
def value : Nat → Read
  | depth, s =>
    match s with
    | '"' :: _ | '\'' :: _ => (Quoted.read? s).map fun (t, r) => (.string (String.ofList t), r)
    | '[' :: r =>
      match depth with
      | 0 => none
      | n + 1 => array? (value n) r
    | '\x7b' :: r =>
      match depth with
      | 0 => none
      | n + 1 => braces? (value n) r
    | s => scalar? s

def depthLimit : Nat := 80

inductive Line where
  | table (k : Key)
  | row (k : Key)
  | entry (k : Key) (v : Toml)

/-- One line, without what may stand behind it. -/
def line? : List Char → Option (Line × List Char)
  | '[' :: '[' :: r => do
    match ← key? r with
    | (k, ']' :: ']' :: r) => some (.row k, r)
    | _ => none
  | '[' :: r => do
    match ← key? r with
    | (k, ']' :: r) => some (.table k, r)
    | _ => none
  | s => (assignment? (value depthLimit) s).map fun ((k, v), r) => (.entry k v, r)

/-- Whether nothing but a comment stands before the end of the line. -/
def isLineOver (s : List Char) : Bool :=
  match s with
  | [] | '#' :: _ => true
  | s => atLineEnd s

def lines : Nat → List Char → Option (List Line)
  | 0, _ => none
  | fuel + 1, s => do
    match ← skipGap false s with
    | [] => some []
    | s =>
      let (l, r) ← line? s
      let r := skipMargin r
      if isLineOver r then (lines fuel r).map (l :: ·) else none

/-- The members read so far, and where keys go. -/
structure Draft where
  members : Members
  current : List String

def Draft.empty : Draft := ⟨[], []⟩

def Draft.add? (d : Draft) : Line → Option Draft
  | .table k => (d.members.openTable k).map fun ms => ⟨ms, k.tables ++ [k.name]⟩
  | .row k => (d.members.openRow k).map fun ms => ⟨ms, k.tables ++ [k.name]⟩
  | .entry k v =>
    (descend false (fun _ ms => ms.assign k v) d.current .header d.members).map fun ms =>
      { d with members := ms }

def dropMark : List Char → List Char
  | '\ufeff' :: r => r
  | s => s

/-- The members of the document that a text holds. A byte order mark before it is passed over. -/
def document? (s : List Char) : Option (List (String × Toml)) := do
  let s := dropMark s
  let ls ← lines (s.length + 1) s
  let d ← ls.foldlM Draft.add? .empty
  some (membersToToml d.members)

end Foreman.Toml

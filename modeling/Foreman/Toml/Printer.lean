import Foreman.Toml.Reader

namespace Foreman.Toml

/-- What stands behind a key. -/
inductive Written where
  | number (n : Nat)
  | text (s : String)
  | texts (ss : List String)

structure Section where
  /-- The name in the header; the first section has none. -/
  header : List String
  entries : List (String × Written)

/-- A key without quotes if it can do without, else in the kind of quotes that needs no escape. -/
def writeKey (s : List Char) : List Char :=
  let plain := !s.any isControl
  if !s.isEmpty && s.all isKeyChar then s
  else if plain && !s.contains '\\' && !s.contains '"' then Quoted.Style.basic.write s
  else if plain && !s.contains '\'' then Quoted.Style.literal.write s
  else Quoted.Style.basic.write s

def writeText (s : String) : List Char := Quoted.write s.toList

def writeItem (s : String) : List Char := "    ".toList ++ writeText s ++ [',', '\n']

def Written.write : Written → List Char
  | number n => Text.ofNat n
  | text s => writeText s
  | texts [] => ['[', ']']
  | texts [s] => '[' :: writeText s ++ [']']
  | texts ss => '[' :: '\n' :: ss.flatMap writeItem ++ [']']

def writeEntry (e : String × Written) : List Char :=
  writeKey e.1.toList ++ [' ', '=', ' '] ++ e.2.write ++ ['\n']

def writeHeader : List String → List Char
  | [] => []
  | names => '[' :: ['.'].intercalate (names.map fun k => writeKey k.toList) ++ [']', '\n']

def Section.write (s : Section) : List Char :=
  writeHeader s.header ++ s.entries.flatMap writeEntry

/-- The text of a document. -/
def writeDocument (ss : List Section) : List Char := ['\n'].intercalate (ss.map Section.write)

end Foreman.Toml

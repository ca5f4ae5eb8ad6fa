import Foreman.Text.Blank
import Foreman.Text.Letter
import Foreman.Text.Search

/-!
# Marked blocks

The agent sets what it has to say between markers. A block opens with the first opening marker that
is not itself the beginning of a closing one, and ends with the first closing marker of the text; it
is absent where that one comes too early.
-/

namespace Foreman

/-- The markers around one kind of block. -/
structure Marker where
  opening : String
  closing : String
deriving DecidableEq, Repr

namespace Marker

def flag : Marker := ⟨"TASK_FLAGGED", "TASK_FLAGGED_END"⟩

def commit : Marker := ⟨"COMMIT_HASH_START", "COMMIT_HASH_END"⟩

def notes : Marker := ⟨"DEV_NOTES_START", "DEV_NOTES_END"⟩

/-- The offset at which the block opens. -/
def openingOffset? (opening closing text : List Char) : Option Nat :=
  (Text.offsets opening text).find? fun i => !closing.isPrefixOf (text.drop i)

/-- The trimmed text between an opening and a closing marker. -/
def between? (opening closing text : List Char) : Option (List Char) := do
  let start ← openingOffset? opening closing text
  let stop ← Text.offset? closing text
  let first := start + opening.length
  if stop < first then none else some (Text.trim ((text.take stop).drop first))

def block? (m : Marker) (text : List Char) : Option (List Char) :=
  between? m.opening.toList m.closing.toList text

end Marker

/-- What a commit block says. -/
inductive CommitClaim where
  | none
  | hash (hash : List Char)
  | invalid
deriving DecidableEq, Repr

namespace CommitClaim

/-- Seven to forty hexadecimal digits. -/
def isHash (s : List Char) : Bool := 7 ≤ s.length && s.length ≤ 40 && s.all Text.isHexDigit

def ofContent (content : List Char) : CommitClaim :=
  let content := Text.trim content
  if Text.lower content = "none".toList then .none
  else if isHash content then .hash content
  else .invalid

end CommitClaim

end Foreman

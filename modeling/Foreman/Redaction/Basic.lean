import Foreman.Redaction.Pattern
import Foreman.Text.Search

namespace Foreman

structure Redactor where
  secrets : List String
deriving DecidableEq, Repr

namespace Redactor

def placeholder : List Char := "[REDACTED]".toList

/-- Shorter values are too common to be replaced wherever they stand. -/
def leastLength : Nat := 6

/-- Whether a value, without blanks around it, is long enough in UTF-8. -/
def isKept (secret : String) : Bool :=
  leastLength ≤ (String.ofList (Text.trim secret.toList)).utf8ByteSize

/-- Drops each value that equals the one before it. -/
def dropRepeats : List String → List String
  | s :: t :: r => if s = t then dropRepeats (t :: r) else s :: dropRepeats (t :: r)
  | r => r

/-- The redactor of some values: the long enough ones, the longest first. -/
def ofValues (values : List String) : Redactor :=
  ⟨dropRepeats ((values.filter isKept).mergeSort fun s t => t.utf8ByteSize ≤ s.utf8ByteSize)⟩

def hideSecrets (secrets : List (List Char)) (text : List Char) : List Char :=
  secrets.foldl (fun t secret => Text.substitute secret placeholder t) text

def hideCredentials (text : List Char) : List Char :=
  Redaction.Pattern.all.foldl (fun t p => p.substitute placeholder t) text

def redactChars (r : Redactor) (text : List Char) : List Char :=
  hideCredentials (hideSecrets (r.secrets.map String.toList) text)

def redact (r : Redactor) (text : String) : String := String.ofList (r.redactChars text.toList)

@[simp] theorem toList_redact (r : Redactor) (text : String) :
    (r.redact text).toList = r.redactChars text.toList := by simp [redact]

end Redactor

end Foreman

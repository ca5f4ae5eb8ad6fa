import Foreman.Report.Envelope
import Foreman.Report.Marker

/-!
# Reports

What the agent reports about a task: whether it refused it and why, the commit it made, and notes.
Blocks are looked for in the message of the envelope first and in all of the output then, since the
last message may leave out what an earlier one has said.
-/

namespace Foreman

structure Report where
  result : Option String
  metrics : Option Metrics
  flagged : Option String
  commit : Option String
  notes : Option String
deriving DecidableEq

namespace Report

def reasonLabel : List Char := "Reason:".toList

/-- The reason in a flag block: what follows the label, or the whole block where nothing does. -/
def reasonOf (block : List Char) : List Char :=
  match Text.cut? reasonLabel block with
  | none => block
  | some (_, rest) => (Text.content? rest).getD block

def present? (s : List Char) : Option (List Char) := if s.isEmpty then none else some s

def flagReason? (text : List Char) : Option (List Char) :=
  (Marker.flag.block? text).bind fun block => present? (reasonOf block)

def devNotes? (text : List Char) : Option (List Char) := (Marker.notes.block? text).bind present?

/-- The first text whose commit block is valid decides; one that declines a commit decides too. -/
def commitHash? : List (List Char) → Option (List Char)
  | [] => none
  | text :: texts =>
    match (Marker.commit.block? text).map CommitClaim.ofContent with
    | some .none => none
    | some (.hash hash) => some hash
    | some .invalid | none => commitHash? texts

/-- The report in some texts, the first of which that says something about a matter deciding. -/
def ofTexts (result : Option String) (metrics : Option Metrics) (texts : List (List Char)) :
    Report where
  result
  metrics
  flagged := (texts.findSome? flagReason?).map String.ofList
  commit := (commitHash? texts).map String.ofList
  notes := (texts.findSome? devNotes?).map String.ofList

/-- The message of an envelope, unless it is blank. -/
def message? (e : Envelope) : Option String :=
  e.result.filter fun s => !Text.isBlankText s.toList

def ofOutput (stdout : String) : Report :=
  let text := stdout.toList
  let envelope := Envelope.ofOutput? text
  let result := envelope.bind message?
  ofTexts result (envelope.bind Envelope.metrics?) ((result.map String.toList).toList ++ [text])

end Report

end Foreman

import Foreman.Report.Marker
import Foreman.Task.Basic

namespace Foreman

/-- Where the agent is to push its work. -/
structure PushTarget where
  remote : String
  branch : String
deriving DecidableEq, Repr

/-- The remote branch as it is written in texts. -/
def PushTarget.text (t : PushTarget) : String := s!"{t.remote}/{t.branch}"

namespace Directive

def trimmed (s : String) : String := String.ofList (Text.trim s.toList)

/-- The lines of a titled section with a blank line before it; nothing if it has no content. -/
def optionalSection (title : String) (content : Option String) : List String :=
  match content.bind fun s => Text.content? s.toList with
  | none => []
  | some s => ["", s!"## {title}", String.ofList s]

def opening : List String :=
  ["You are working unattended on a queued task in this repository. Nobody will",
    "answer questions while you work; make reasonable decisions and finish the task.", ""]

def taskLines (t : Task) : List String :=
  ["# Task", trimmed t.title] ++ optionalSection "Description" t.description ++
    optionalSection "Area" t.area ++ optionalSection "Notes" t.notes ++ [""]

def flagLines : List String :=
  ["Safety: if the task would destroy data, leak credentials, weaken security, or",
    "is otherwise unsafe to carry out unattended, do NOT make any changes. Instead",
    "print exactly:", "", Marker.flag.opening, "Reason: <one line explaining why>",
    Marker.flag.closing, ""]

def commitLines (target : PushTarget) : List String :=
  [s!"Otherwise, complete the task on branch `{target.branch}`. Commit your changes",
    s!"with a descriptive message and push them to `{target.text}`.", "",
    "When you are done, print the full hash of the commit you pushed (or the word",
    "`none` if you made no commit):", "", Marker.commit.opening, "<commit hash or none>",
    Marker.commit.closing, ""]

def notesLines : List String :=
  ["Then print a short summary for the developer of what you changed and anything",
    "they should check:", "", Marker.notes.opening, "<summary>", Marker.notes.closing]

def lines (t : Task) (target : PushTarget) : List String :=
  opening ++ taskLines t ++ ["# Completion protocol", ""] ++ flagLines ++ commitLines target ++
    notesLines

/-- The directive for a task; its last line is not ended. -/
def text (t : Task) (target : PushTarget) : String := "\n".intercalate (lines t target)

end Directive

end Foreman

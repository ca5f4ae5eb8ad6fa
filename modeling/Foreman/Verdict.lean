import Foreman.Child.Outcome
import Foreman.Report.Basic
import Foreman.Time.Span

namespace Foreman

/-- Phrases, in lower case, that tell of a missing program, missing rights or throttling. -/
def systemErrorPhrases : List String :=
  ["command not found", "enoent", "no such file or directory", "permission denied", "eacces",
    "authentication", "unauthorized", "invalid api key", "rate limit", "rate_limit",
    "too many requests"]

def looksLikeSystemError (text : List Char) : Bool :=
  let lowered := Text.lower text
  systemErrorPhrases.any fun phrase => Text.occursIn phrase.toList lowered

inductive Verdict where
  /-- Whether it is a system error is not known of a run that took too long. -/
  | failed (error : String) (systemError : Option Bool)
  | succeeded (notes : Option String) (metrics : Option Metrics) (flagged : Option String)
      (commit : Option String)
deriving DecidableEq

namespace Verdict

/-- How much of the end of the output an error quotes, in characters. -/
def quotedLength : Nat := 2000

def tail (n : Nat) (s : List Char) : List Char := s.drop (s.length - n)

/-- The output that an error quotes: the error stream, unless that is blank. -/
def quoted (stdout stderr : List Char) : List Char :=
  tail quotedLength (Text.trim (if Text.isBlankText stderr then stdout else stderr))

/-- The agent could not be started. -/
def ofSpawnError (message : String) : Verdict :=
  .failed s!"could not start agent: {message}" (some (looksLikeSystemError message.toList))

def exitText : Option Int → String
  | some code => toString code
  | none => "signal"

def failureText (o : ChildOutcome) : String :=
  let status := s!"agent exited with status {exitText o.exitCode}"
  let detail := quoted o.stdout.toList o.stderr.toList
  if detail.isEmpty then status else s!"{status}: {String.ofList detail}"

/-- The verdict on a finished run that was given a certain time. -/
def ofOutcome (o : ChildOutcome) (timeout : Span) : Verdict :=
  if o.timedOut then .failed s!"agent timed out after {timeout.text} and was terminated" none
  else if o.success then
    let r := Report.ofOutput o.stdout
    .succeeded r.notes r.metrics r.flagged r.commit
  else
    .failed (failureText o)
      (some (looksLikeSystemError (o.stderr.toList ++ '\n' :: o.stdout.toList)))

end Verdict

end Foreman

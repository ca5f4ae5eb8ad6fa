import Foreman.Json.Reader
import Foreman.Json.Record
import Foreman.Task.Basic
import Foreman.Text.Blank
import Foreman.Text.Search

namespace Foreman

structure Envelope where
  result : Option String
  turns : Option UInt32
  totalCost : Option Binary64
  cost : Option Binary64
  durationMillis : Option UInt64
  usage : Option TokenUsage

namespace Envelope

/-- Token counts of which any may be missing, and then are zero. -/
def usageOfJson? (j : Json) : Option TokenUsage := do
  let fs ← j.fields? ["input_tokens", "output_tokens", "cache_creation_input_tokens",
    "cache_read_input_tokens"]
  return {
    input := ← fs.withDefault? "input_tokens" 0 Json.asUInt64?
    output := ← fs.withDefault? "output_tokens" 0 Json.asUInt64?
    cacheCreation := ← fs.withDefault? "cache_creation_input_tokens" 0 Json.asUInt64?
    cacheRead := ← fs.withDefault? "cache_read_input_tokens" 0 Json.asUInt64? }

def fieldNames : List String :=
  ["result", "num_turns", "total_cost_usd", "cost_usd", "duration_ms", "usage"]

def ofJson? (j : Json) : Option Envelope := do
  let fs ← j.fields? fieldNames
  return {
    result := ← fs.optional? "result" Json.asText?
    turns := ← fs.optional? "num_turns" Json.asUInt32?
    totalCost := ← fs.optional? "total_cost_usd" Json.asBinary64?
    cost := ← fs.optional? "cost_usd" Json.asBinary64?
    durationMillis := ← fs.optional? "duration_ms" Json.asUInt64?
    usage := ← fs.optional? "usage" usageOfJson? }

/-- The total cost stands before the plain one. -/
def metrics (e : Envelope) : Metrics where
  turns := e.turns
  cost := e.totalCost.orElse fun _ => e.cost
  durationMillis := e.durationMillis
  usage := e.usage

def metrics? (e : Envelope) : Option Metrics :=
  if e.metrics = .empty then none else some e.metrics

/-- The envelope that a text is, if it begins with a brace. -/
def ofText? (s : List Char) : Option Envelope :=
  match s with
  | '\x7b' :: _ => (Json.parse? s).bind ofJson?
  | _ => none

/-- The last line that is not blank. -/
def lastLine? (s : List Char) : Option (List Char) :=
  (Text.lines s).reverse.find? fun line => !Text.isBlankText line

def ofOutput? (stdout : List Char) : Option Envelope :=
  let s := Text.trim stdout
  (ofText? s).orElse fun _ => (lastLine? s).bind fun line => ofText? (Text.trim line)

end Envelope

end Foreman

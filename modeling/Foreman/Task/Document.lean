import Foreman.Json.Printer
import Foreman.Json.Reader
import Foreman.Json.Record
import Foreman.Task.Book

namespace Foreman

namespace TokenUsage

def toJson (u : TokenUsage) : Json :=
  .record [("input_tokens", .ofNat u.input.toNat), ("output_tokens", .ofNat u.output.toNat),
    ("cache_creation_input_tokens", .ofNat u.cacheCreation.toNat),
    ("cache_read_input_tokens", .ofNat u.cacheRead.toNat)]

def fieldNames : List String :=
  ["input_tokens", "output_tokens", "cache_creation_input_tokens", "cache_read_input_tokens"]

def ofJson? (j : Json) : Option TokenUsage := do
  let fs ← j.fields? fieldNames
  return {
    input := ← fs.required? "input_tokens" Json.asUInt64?
    output := ← fs.required? "output_tokens" Json.asUInt64?
    cacheCreation := ← fs.required? "cache_creation_input_tokens" Json.asUInt64?
    cacheRead := ← fs.required? "cache_read_input_tokens" Json.asUInt64? }

end TokenUsage

namespace Metrics

def toJson (m : Metrics) : Json :=
  .record [("turns", Json.ofOption (fun n => .ofNat n.toNat) m.turns),
    ("cost_usd", Json.ofOption .ofBinary64 m.cost),
    ("duration_ms", Json.ofOption (fun n => .ofNat n.toNat) m.durationMillis),
    ("usage", Json.ofOption TokenUsage.toJson m.usage)]

def ofJson? (j : Json) : Option Metrics := do
  let fs ← j.fields? ["turns", "cost_usd", "duration_ms", "usage"]
  return {
    turns := ← fs.nullable? "turns" Json.asUInt32?
    cost := ← fs.nullable? "cost_usd" Json.asBinary64?
    durationMillis := ← fs.nullable? "duration_ms" Json.asUInt64?
    usage := ← fs.nullable? "usage" TokenUsage.ofJson? }

end Metrics

/-- A status stands as its name, or as an object that maps its name to `null`. -/
def Task.Status.ofJson? : Json → Option Task.Status
  | .string (some s) => ofName? s
  | .object [(some s, .null)] => ofName? s
  | _ => none

def Instant.ofJson? : Json → Option Instant
  | .string (some s) => Instant.parse? s.toList
  | _ => none

namespace Task

/-- A member that is left out where it is empty. -/
def optionalMember (name : String) (f : α → Json) : Option α → List (String × Json)
  | none => []
  | some a => [(name, f a)]

def toJson (t : Task) : Json :=
  .record ([("id", .ofString t.id), ("title", .ofString t.title)] ++
    optionalMember "description" .ofString t.description ++
    optionalMember "notes" .ofString t.notes ++
    optionalMember "area" .ofString t.area ++
    [("status", .ofString t.status.name)] ++
    optionalMember "commit_ref" .ofString t.commit ++
    optionalMember "metrics" Metrics.toJson t.metrics ++
    [("created_at", .ofString t.created.text)] ++
    optionalMember "completed_at" (fun c => .ofString c.text) t.completed)

def fieldNames : List String :=
  ["id", "title", "description", "notes", "area", "status", "commit_ref", "metrics", "created_at",
    "completed_at"]

def ofJson? (j : Json) : Option Task := do
  let fs ← j.fields? fieldNames
  return {
    id := ← fs.required? "id" Json.asText?
    title := ← fs.required? "title" Json.asText?
    description := ← fs.optional? "description" Json.asText?
    notes := ← fs.optional? "notes" Json.asText?
    area := ← fs.optional? "area" Json.asText?
    status := ← fs.required? "status" Task.Status.ofJson?
    commit := ← fs.optional? "commit_ref" Json.asText?
    metrics := ← fs.optional? "metrics" Metrics.ofJson?
    created := ← fs.required? "created_at" Instant.ofJson?
    completed := ← fs.optional? "completed_at" Instant.ofJson? }

/-- The task that a text holds. -/
def parse? (s : String) : Option Task := (Json.parse? s.toList).bind ofJson?

end Task

namespace TaskBook

def toJson (b : TaskBook) : Json := .record [("tasks", .array (b.tasks.map Task.toJson))]

def ofJson? (j : Json) : Option TaskBook := do
  let fs ← j.fields? ["tasks"]
  return ⟨← fs.required? "tasks" (Json.asList? Task.ofJson?)⟩

/-- The text that keeps a book; it ends with a line feed. -/
def render (b : TaskBook) : String := b.toJson.pretty ++ "\n"

def parse? (s : String) : Option TaskBook := (Json.parse? s.toList).bind ofJson?

end TaskBook

end Foreman

import Foreman.Proofs.Json.Kept
import Foreman.Proofs.Time.Instant
import Foreman.Task.Document

namespace Foreman

open Json (Kept Sound)

theorem TokenUsage.kept (u : TokenUsage) : Kept toJson ofJson? u := by
  have count (n : UInt64) := Json.kept_ofNat_uInt64 n
  constructor
  · apply Sound.record
    simp [(count _).sound]
  · nofun
  · rw [toJson, ofJson?, Json.fields?_of_sublist (by decide : fieldNames.Nodup)]
    · rw [Option.bind_eq_bind, Option.bind_some, Json.Fields.required?_of_get? (count u.input) rfl,
        Json.Fields.required?_of_get? (count u.output) rfl,
        Json.Fields.required?_of_get? (count u.cacheCreation) rfl,
        Json.Fields.required?_of_get? (count u.cacheRead) rfl]
      rfl
    · exact List.Sublist.refl fieldNames

theorem Task.Status.kept (s : Task.Status) : Kept (fun s => .ofString s.name) ofJson? s where
  sound := .string trivial
  present := nofun
  reads := ofName?_name s

theorem Instant.kept (t : Instant) : Kept (fun t => .ofString t.text) ofJson? t where
  sound := .string trivial
  present := nofun
  reads := by
    show parse? t.text.toList = some t
    rw [text, String.toList_ofList, parse?_chars]

/-- Nothing of the amount is lost in writing and reading numbers. -/
def Metrics.Restored (m : Metrics) : Prop := ∀ x ∈ m.cost, x.Restored

def Task.Restored (t : Task) : Prop := ∀ m ∈ t.metrics, m.Restored

def TaskBook.Restored (b : TaskBook) : Prop := ∀ t ∈ b.tasks, t.Restored

theorem Metrics.kept {m : Metrics} (h : m.Restored) : Kept toJson ofJson? m := by
  have turns (n : UInt32) (_ : n ∈ m.turns) := Json.kept_ofNat_uInt32 n
  have cost (x : Binary64) (hx : x ∈ m.cost) := Json.kept_ofBinary64 (h x hx)
  have duration (n : UInt64) (_ : n ∈ m.durationMillis) := Json.kept_ofNat_uInt64 n
  have usage (u : TokenUsage) (_ : u ∈ m.usage) := u.kept
  constructor
  · apply Sound.record
    simp [Json.sound_ofOption turns, Json.sound_ofOption cost, Json.sound_ofOption duration,
      Json.sound_ofOption usage]
  · nofun
  · rw [toJson, ofJson?, Json.fields?_of_sublist (by decide)]
    · rw [Option.bind_eq_bind, Option.bind_some, Json.Fields.nullable?_of_get? turns rfl rfl,
        Json.Fields.nullable?_of_get? cost rfl rfl, Json.Fields.nullable?_of_get? duration rfl rfl,
        Json.Fields.nullable?_of_get? usage rfl rfl]
      rfl
    · exact List.Sublist.refl _

namespace Task

variable {write : α → Json} {read : Json → Option α} {a : Option α}

theorem lookup_optionalMember (name other : String) (write : α → Json) (a : Option α) :
    (optionalMember name write a).lookup other = if other = name then a.map write else none := by
  cases a with
  | none => simp [optionalMember]
  | some x =>
    rw [optionalMember, List.lookup_cons]
    by_cases same : other = name
    · simp [same]
    · simp [same, beq_false_of_ne same]

theorem sound_of_mem_optionalMember (h : ∀ x ∈ a, Kept write read x)
    (hm : m ∈ optionalMember name write a) : Sound (fun _ => True) m.2 := by
  cases a with
  | none => cases hm
  | some x =>
    rw [List.mem_singleton.1 hm]
    exact (h x rfl).sound

theorem sublist_optionalMember (name : String) (write : α → Json) (a : Option α) :
    ((optionalMember name write a).map Prod.fst).Sublist [name] := by
  cases a with
  | none => exact List.nil_sublist [name]
  | some x => exact List.Sublist.refl [name]

/-- The members of a task, in the order of its fields. -/
def members (t : Task) : List (String × Json) :=
  [("id", .ofString t.id), ("title", .ofString t.title)] ++
    optionalMember "description" .ofString t.description ++
    optionalMember "notes" .ofString t.notes ++
    optionalMember "area" .ofString t.area ++
    [("status", .ofString t.status.name)] ++
    optionalMember "commit_ref" .ofString t.commit ++
    optionalMember "metrics" Metrics.toJson t.metrics ++
    [("created_at", .ofString t.created.text)] ++
    optionalMember "completed_at" (fun c => .ofString c.text) t.completed

theorem sublist_members (t : Task) : (t.members.map Prod.fst).Sublist fieldNames := by
  have optional {α : Type} (name : String) (write : α → Json) (a : Option α) :=
    sublist_optionalMember name write a
  simp only [members, List.map_append]
  exact ((((((((List.Sublist.refl ["id", "title"]).append (optional "description" _ _)).append
    (optional "notes" _ _)).append (optional "area" _ _)).append
    (List.Sublist.refl ["status"])).append (optional "commit_ref" _ _)).append
    (optional "metrics" _ _)).append (List.Sublist.refl ["created_at"])).append
    (optional "completed_at" _ _)

/-- What a written task holds, found by name. -/
def fields (t : Task) : Json.Fields := ⟨false, t.members⟩

theorem get?_fields (t : Task) :
    t.fields.get? "id" = some (.ofString t.id) ∧
    t.fields.get? "title" = some (.ofString t.title) ∧
    t.fields.get? "description" = t.description.map .ofString ∧
    t.fields.get? "notes" = t.notes.map .ofString ∧
    t.fields.get? "area" = t.area.map .ofString ∧
    t.fields.get? "status" = some (.ofString t.status.name) ∧
    t.fields.get? "commit_ref" = t.commit.map .ofString ∧
    t.fields.get? "metrics" = t.metrics.map Metrics.toJson ∧
    t.fields.get? "created_at" = some (.ofString t.created.text) ∧
    t.fields.get? "completed_at" = t.completed.map fun c => .ofString c.text := by
  simp [Json.Fields.get?, fields, members, List.lookup_append, lookup_optionalMember,
    List.lookup_cons]

theorem kept {t : Task} (h : t.Restored) : Kept toJson ofJson? t := by
  have texts (a : Option String) (s : String) (_ : s ∈ a) := Json.kept_ofString s
  have metrics (m : Metrics) (hm : m ∈ t.metrics) := Metrics.kept (h m hm)
  have times (a : Option Instant) (c : Instant) (_ : c ∈ a) := c.kept
  constructor
  · apply Sound.record
    intro m hm
    refine ⟨trivial, ?_⟩
    simp only [List.mem_append, List.mem_cons, List.not_mem_nil, or_false] at hm
    rcases hm with
      ((((((((rfl | rfl) | description) | notes) | area) | rfl) | commit) | hm) | rfl) | completed
    · exact .string trivial
    · exact .string trivial
    · exact sound_of_mem_optionalMember (texts _) description
    · exact sound_of_mem_optionalMember (texts _) notes
    · exact sound_of_mem_optionalMember (texts _) area
    · exact .string trivial
    · exact sound_of_mem_optionalMember (texts _) commit
    · exact sound_of_mem_optionalMember metrics hm
    · exact .string trivial
    · exact sound_of_mem_optionalMember (times _) completed
  · nofun
  · obtain ⟨id, title, description, notes, area, status, commit, ran, created, completed⟩ :=
      t.get?_fields
    have found : Json.fields? fieldNames (toJson t) = some t.fields :=
      Json.fields?_of_sublist (by decide) t.sublist_members
    rw [ofJson?, found, Option.bind_eq_bind, Option.bind_some,
      Json.Fields.required?_of_get? (Json.kept_ofString t.id) id,
      Json.Fields.required?_of_get? (Json.kept_ofString t.title) title,
      Json.Fields.optional?_of_get? (texts _) description,
      Json.Fields.optional?_of_get? (texts _) notes,
      Json.Fields.optional?_of_get? (texts _) area,
      Json.Fields.required?_of_get? t.status.kept status,
      Json.Fields.optional?_of_get? (texts _) commit,
      Json.Fields.optional?_of_get? metrics ran,
      Json.Fields.required?_of_get? t.created.kept created,
      Json.Fields.optional?_of_get? (times _) completed]
    rfl

end Task

namespace TaskBook

theorem restored_empty : empty.Restored := by
  intro t ht
  cases ht

theorem kept {b : TaskBook} (h : b.Restored) : Kept toJson ofJson? b := by
  have tasks (t : Task) (ht : t ∈ b.tasks) := Task.kept (h t ht)
  constructor
  · apply Sound.record
    intro m hm
    rw [List.mem_singleton.1 hm]
    refine ⟨trivial, .array ?_⟩
    intro j hj
    obtain ⟨t, ht, rfl⟩ := List.mem_map.1 hj
    exact (tasks t ht).sound
  · nofun
  · rw [toJson, ofJson?, Json.fields?_of_sublist (by decide)]
    · simp [Json.Fields.required?, Json.Fields.get?, Json.asList?_map tasks]
    · exact List.Sublist.refl _

theorem toList_render (b : TaskBook) : b.render.toList = Json.prettyChars 0 b.toJson ++ ['\n'] := by
  simp [render, Json.pretty]

/-- A book is read back from its text. -/
theorem parse?_render {b : TaskBook} (h : b.Restored) : parse? b.render = some b := by
  rw [parse?, toList_render, (kept h).sound.parse?_pretty, Option.bind_some, (kept h).reads]

end TaskBook

end Foreman

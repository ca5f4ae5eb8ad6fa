import Foreman.Proofs.Toml.Document
import Foreman.Settings.Document

namespace Foreman

namespace Variables

theorem insertEntry_of_lt {name value : String} {l : List (String × String)}
    (h : ∀ e ∈ l, e.1 < name) : insertEntry name value l = l ++ [(name, value)] := by
  induction l with
  | nil => rfl
  | cons e l ih =>
    obtain ⟨n, v⟩ := e
    have less : n < name := h (n, v) List.mem_cons_self
    have later := ih fun e he => h e (List.mem_cons_of_mem _ he)
    have notLess : ¬ name < n := fun more => String.lt_irrefl name (String.lt_trans more less)
    have ne : name ≠ n := by
      rintro rfl
      exact String.lt_irrefl name less
    rw [insertEntry, if_neg notLess, if_neg ne, later, List.cons_append]

/-- Variables that come in ascending order are put behind those that are there. -/
theorem entries_foldl_insert {vs : Variables} {l : List (String × String)}
    (ascending : (vs.entries ++ l).Pairwise fun a b => a.1 < b.1) :
    (l.foldl (fun vs (name, value) => vs.insert name value) vs).entries = vs.entries ++ l := by
  induction l generalizing vs with
  | nil => exact (List.append_nil vs.entries).symm
  | cons e l ih =>
    obtain ⟨name, value⟩ := e
    have before : ∀ e ∈ vs.entries, e.1 < name := fun e he =>
      (List.pairwise_append.1 ascending).2.2 e he (name, value) List.mem_cons_self
    have inserted : (vs.insert name value).entries = vs.entries ++ [(name, value)] :=
      insertEntry_of_lt before
    have later := @ih (vs.insert name value)
    rw [inserted, List.append_assoc] at later
    exact later ascending

theorem ofList_entries (vs : Variables) : ofList vs.entries = vs := by
  have same : (ofList vs.entries).entries = vs.entries := entries_foldl_insert vs.ascending
  cases vs
  cases h : ofList _
  rw [h] at same
  cases same
  rfl

end Variables

namespace Settings

open Toml

theorem mapM_asText? (ss : List String) : (ss.map Toml.string).mapM asText? = some ss := by
  induction ss with
  | nil => rfl
  | cons s ss ih => simp [asText?, ih]

theorem asTexts?_array (ss : List String) : asTexts? (.array (ss.map .string)) = some ss :=
  mapM_asText? ss

theorem asUInt64?_toNat (n : UInt64) : asUInt64? (.integer n.toNat) = some n := by
  have small := n.toNat_lt_size
  rw [asUInt64?, if_pos ⟨Int.natCast_nonneg _, by omega⟩]
  simp

def members (es : List (String × Written)) : List (String × Toml) :=
  es.map fun e => (e.1, e.2.toToml)

theorem Repository.ofToml?_members (r : Repository) :
    ofToml? (.table (members r.entries)) = some r := by
  obtain ⟨url, workdir, remote, branch⟩ := r
  cases url with
  | none => rfl
  | some url => rfl

theorem variablesOfToml?_members (vs : Variables) :
    variablesOfToml? (.table (members (vs.entries.map fun (name, v) => (name, .text v)))) =
      some vs := by
  have read : (members (vs.entries.map fun (name, v) => (name, Written.text v))).mapM
      (fun m => (asText? m.2).map fun text => (m.1, text)) = some vs.entries := by
    rw [members, List.map_map]
    induction vs.entries with
    | nil => rfl
    | cons e es ih =>
      rw [List.map_cons, List.mapM_cons, ih]
      rfl
  rw [variablesOfToml?, Toml.members?]
  change Option.bind (some _) (fun ms => Option.bind (List.mapM _ ms) _) = _
  rw [Option.bind_some, read]
  exact congrArg some (Variables.ofList_entries vs)

theorem Agent.ofToml?_members (a : Agent) (vs : Toml)
    (read : variablesOfToml? vs = some a.assignments) :
    ofToml? (.table (members a.entries ++ [("env", vs)])) = some a := by
  obtain ⟨program, arguments, passthrough, assignments⟩ := a
  have args := asTexts?_array arguments
  have passed := asTexts?_array passthrough
  simp [ofToml?, fields?, Toml.members?, members, entries, field?, Written.toToml, List.lookup_cons,
    asText?, args, passed, read]

def tables (s : Settings) : List (String × Toml) :=
  members s.numbers ++
    [("repo", .table (members s.repository.entries)),
      ("agent", .table (members s.agent.entries ++
        [("env", .table (members
          (s.agent.assignments.entries.map fun (name, v) => (name, .text v))))])),
      ("store", .table (members [("path", .text s.storePath)])),
      ("redact", .table (members [("env_vars", .texts s.secretVariables)]))]

theorem ofMembers?_tables (s : Settings) : ofMembers? s.tables = some s := by
  have repository := s.repository.ofToml?_members
  have agent := s.agent.ofToml?_members _ (variablesOfToml?_members s.agent.assignments)
  have store : storePathOfToml? (.table (members [("path", .text s.storePath)])) =
      some s.storePath := rfl
  have secrets :
      secretVariablesOfToml? (.table (members [("env_vars", .texts s.secretVariables)])) =
        some s.secretVariables := asTexts?_array s.secretVariables
  rw [tables]
  generalize Toml.table (members s.repository.entries) = repo at repository ⊢
  generalize Toml.table (members s.agent.entries ++ _) = agent' at agent ⊢
  generalize Toml.table (members [("path", _)]) = store' at store ⊢
  generalize Toml.table (members [("env_vars", _)]) = redact at secrets ⊢
  simp [ofMembers?, members, numbers, field?, List.lookup_cons, Written.toToml, asUInt64?_toNat,
    repository, agent, store, secrets]

def layout (s : Settings) : Layout :=
  .table s.numbers
    [("repo", .table s.repository.entries []),
      ("agent", .table s.agent.entries
        [("env", .table (s.agent.assignments.entries.map fun (name, v) => (name, .text v)) [])]),
      ("store", .table [("path", .text s.storePath)] []),
      ("redact", .table [("env_vars", .texts s.secretVariables)] [])]

theorem sections_layout (s : Settings) : s.layout.sections [] = s.sections := rfl

theorem distinct_repository (r : Repository) : (r.entries.map (·.1)).Nodup := by
  obtain ⟨url, _⟩ := r
  cases url <;> simp [Repository.entries]

theorem distinct_variables (vs : Variables) :
    ((vs.entries.map fun (name, v) => (name, Written.text v)).map (·.1)).Nodup := by
  rw [List.map_map]
  apply List.Pairwise.map _ _ vs.ascending
  intro a b less same
  have same : a.1 = b.1 := same
  rw [same] at less
  exact String.lt_irrefl b.1 less

theorem distinct_layout (s : Settings) : s.layout.Distinct := by
  have repository := distinct_repository s.repository
  have assigned := distinct_variables s.agent.assignments
  refine ⟨by simp [numbers], ?_, ?_, ?_, ?_, trivial⟩
  · exact ⟨by simpa using repository, trivial⟩
  · exact ⟨by simp [Agent.entries], ⟨by simpa using assigned, trivial⟩, trivial⟩
  · exact ⟨by simp, trivial⟩
  · exact ⟨by simp, trivial⟩

theorem nodes_layout (s : Settings) : membersToToml s.layout.nodes = s.tables := by
  simp only [layout, Layout.nodes, Layout.innerNodes, membersToToml_append, membersToToml_nodes,
    membersToToml, Node.toToml, List.append_nil, tables, members]

theorem fits_sections (s : Settings) : ∀ sec ∈ s.sections, ∀ e ∈ sec.entries, e.2.Fits := by
  intro sec hs e he
  simp only [sections, List.mem_cons, List.not_mem_nil, or_false] at hs
  rcases hs with rfl | rfl | rfl | rfl | rfl | rfl
  · simp only [numbers, List.mem_cons, List.not_mem_nil, or_false] at he
    rcases he with rfl | rfl | rfl | rfl | rfl <;> exact UInt64.toNat_lt_size _
  · simp only [Repository.entries, List.mem_append, Option.mem_toList, Option.map_eq_some_iff,
      List.mem_cons, List.not_mem_nil, or_false] at he
    rcases he with ⟨url, -, rfl⟩ | rfl | rfl | rfl <;> trivial
  · simp only [Agent.entries, List.mem_cons, List.not_mem_nil, or_false] at he
    rcases he with rfl | rfl | rfl <;> trivial
  · obtain ⟨e', -, rfl⟩ := List.mem_map.1 he
    trivial
  · rw [List.mem_singleton.1 he]
    trivial
  · rw [List.mem_singleton.1 he]
    trivial

/-- The settings that are written are those that are read. -/
theorem parse?_render (s : Settings) : parse? s.render = some s := by
  have fits := s.fits_sections
  rw [← sections_layout] at fits
  rw [parse?, render, String.toList_ofList, ← sections_layout,
    document?_writeDocument s.distinct_layout fits, nodes_layout, Option.bind_some,
    ofMembers?_tables]

end Settings

end Foreman

import Foreman.Json.Record
import Foreman.Proofs.Json.Reading

namespace Foreman.Json

/-- The members of a record as those of an object. -/
def named (ms : List (String × Json)) : List (Option String × Json) :=
  ms.map fun m => (some m.1, m.2)

@[simp] theorem named_nil : named [] = [] := rfl

@[simp] theorem named_cons (m : String × Json) (ms : List (String × Json)) :
    named (m :: ms) = (some m.1, m.2) :: named ms := rfl

theorem record_eq (ms : List (String × Json)) : record ms = .object (named ms) := rfl

theorem Sound.record {ms : List (String × Json)} (h : ∀ m ∈ ms, ok m.1 ∧ Sound ok m.2) :
    Sound ok (record ms) := by
  refine .object ?_ ?_
  · intro x hx
    obtain ⟨m, hm, rfl⟩ := List.mem_map.1 hx
    exact ⟨m.1, rfl, (h m hm).1⟩
  · intro x hx
    obtain ⟨m, hm, rfl⟩ := List.mem_map.1 hx
    exact (h m hm).2

theorem ne_of_mem {ms : List (String × α)} (fresh : first ∉ ms.map Prod.fst) (h : m ∈ ms) :
    m.1 ≠ first := by
  rintro rfl
  exact fresh (List.mem_map_of_mem h)

theorem lookup_of_mem_nodup {ms : List (String × α)} (names : (ms.map Prod.fst).Nodup)
    (h : (name, v) ∈ ms) : ms.lookup name = some v := by
  induction ms with
  | nil => cases h
  | cons m ms ih =>
    obtain ⟨first, w⟩ := m
    obtain ⟨fresh, names⟩ := List.nodup_cons.1 names
    rcases List.mem_cons.1 h with same | later
    · cases same
      exact List.lookup_cons_self
    · rw [List.lookup_cons, beq_false_of_ne (ne_of_mem fresh later)]
      exact ih names later

theorem namedMembers?_record (names : List String) (ms : List (String × Json)) :
    namedMembers? names (named ms) = some (ms.filter fun m => names.contains m.1) := by
  induction ms with
  | nil => rfl
  | cons m ms ih => simp only [named_cons, namedMembers?, ih, Option.map_some, List.filter_cons]

theorem fields?_record {ms : List (String × Json)} (names : List String)
    (nodup : (ms.map Prod.fst).Nodup) :
    fields? names (record ms) = some ⟨false, ms.filter fun m => names.contains m.1⟩ := by
  have found : ((ms.filter fun m => names.contains m.1).map Prod.fst).Nodup :=
    nodup.sublist (List.filter_sublist.map Prod.fst)
  rw [record_eq, fields?, namedMembers?_record]
  exact if_pos found

theorem Fields.exists_optional? {fs : Fields} {read : Json → Option α}
    (h : ∀ v, (name, v) ∈ fs.values → (orNull? read v).isSome) :
    ∃ x, fs.optional? name read = some x := by
  rw [optional?, withDefault?, get?]
  cases hl : fs.values.lookup name with
  | none => exact ⟨none, rfl⟩
  | some v =>
    obtain ⟨l, r, hv, -⟩ := List.lookup_eq_some_iff.1 hl
    exact Option.isSome_iff_exists.1 (h v (by simp [hv]))

theorem Fields.optional?_of_mem {fs : Fields} (nodup : (fs.values.map Prod.fst).Nodup)
    (h : (name, v) ∈ fs.values) (read : Json → Option α) :
    fs.optional? name read = orNull? read v := by
  rw [optional?, withDefault?, get?, lookup_of_mem_nodup nodup h]

end Foreman.Json

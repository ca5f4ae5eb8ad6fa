namespace Foreman

structure Variables where
  entries : List (String × String)
  ascending : entries.Pairwise fun a b => a.1 < b.1

namespace Variables

def empty : Variables := ⟨[], .nil⟩

/-- Puts a variable in its place, instead of one that has its name. -/
def insertEntry (name value : String) : List (String × String) → List (String × String)
  | [] => [(name, value)]
  | (n, v) :: r =>
    if name < n then (name, value) :: (n, v) :: r
    else if name = n then (name, value) :: r
    else (n, v) :: insertEntry name value r

theorem mem_insertEntry {name value : String} {e : String × String} {l : List (String × String)}
    (h : e ∈ insertEntry name value l) : e = (name, value) ∨ e ∈ l := by
  induction l with
  | nil => simpa [insertEntry] using h
  | cons a r ih =>
    obtain ⟨n, v⟩ := a
    simp only [insertEntry] at h
    split at h
    · simpa using h
    · split at h
      · rcases List.mem_cons.1 h with h | h
        · exact .inl h
        · exact .inr (List.mem_cons_of_mem _ h)
      · rcases List.mem_cons.1 h with h | h
        · exact .inr (h ▸ List.mem_cons_self)
        · rcases ih h with h | h
          · exact .inl h
          · exact .inr (List.mem_cons_of_mem _ h)

theorem lt_of_not_lt_of_ne {a b : String} (h : ¬a < b) (hne : a ≠ b) : b < a := by
  rcases Std.Trichotomous.rel_or_eq_or_rel_swap (r := (· < · : String → String → Prop))
    (a := a) (b := b) with h' | h' | h'
  · exact absurd h' h
  · exact absurd h' hne
  · exact h'

theorem ascending_insertEntry {name value : String} {l : List (String × String)}
    (h : l.Pairwise fun a b => a.1 < b.1) :
    (insertEntry name value l).Pairwise fun a b => a.1 < b.1 := by
  induction l with
  | nil => simp [insertEntry]
  | cons a r ih =>
    obtain ⟨n, v⟩ := a
    obtain ⟨hn, hr⟩ := List.pairwise_cons.1 h
    simp only [insertEntry]
    split
    · rename_i hlt
      refine List.pairwise_cons.2 ⟨fun b hb => ?_, h⟩
      rcases List.mem_cons.1 hb with rfl | hb
      · exact hlt
      · exact String.lt_trans hlt (hn b hb)
    · split
      · rename_i heq
        subst heq
        exact List.pairwise_cons.2 ⟨hn, hr⟩
      · rename_i hlt hne
        refine List.pairwise_cons.2 ⟨fun b hb => ?_, ih hr⟩
        rcases mem_insertEntry hb with rfl | hb
        · exact lt_of_not_lt_of_ne hlt hne
        · exact hn b hb

def insert (vs : Variables) (name value : String) : Variables :=
  ⟨insertEntry name value vs.entries, ascending_insertEntry vs.ascending⟩

def ofList (entries : List (String × String)) : Variables :=
  entries.foldl (fun vs (name, value) => vs.insert name value) empty

def get? (vs : Variables) (name : String) : Option String := vs.entries.lookup name

def names (vs : Variables) : List String := vs.entries.map (·.1)

def values (vs : Variables) : List String := vs.entries.map (·.2)

end Variables

end Foreman

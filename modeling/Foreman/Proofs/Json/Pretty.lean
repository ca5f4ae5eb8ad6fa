import Foreman.Proofs.Json.Reading

namespace Foreman.Json

theorem spaces_newline (level : Nat) : Spaces (newline level) := by
  intro c hc
  rcases List.mem_cons.1 hc with rfl | blank
  · rfl
  · rw [List.eq_of_mem_replicate blank]
    rfl

theorem spaces_blank : Spaces [' '] := by
  intro c hc
  rw [List.mem_singleton.1 hc]
  rfl

theorem prettyItems_cons (level : Nat) (v : Json) (vs : List Json) :
    prettyItems level (v :: vs) =
      ',' :: (newline (level + 1) ++ (prettyChars (level + 1) v ++ prettyItems level vs)) := by
  simp [prettyItems]

theorem prettyMembers_cons (level : Nat) (name : Option String) (v : Json)
    (ms : List (Option String × Json)) :
    prettyMembers level ((name, v) :: ms) =
      ',' :: (newline (level + 1) ++ (quoteText name ++
        ':' :: ([' '] ++ (prettyChars (level + 1) v ++ prettyMembers level ms)))) := by
  simp [prettyMembers]

theorem Sound.spelling_pretty (h : Sound ok j) (level : Nat) :
    Spelling j (prettyChars level j) := by
  induction h generalizing level with
  | null => exact .null
  | bool b => cases b <;> exact .bool _
  | number h => exact .number h
  | string h => exact .string _
  | @array vs items ih =>
    cases vs with
    | nil => exact .emptyArray spaces_nil
    | cons v vs =>
      have spelled := itemSpelling_of_print (spaces_newline (level + 1)) (spaces_newline level) rfl
        (prettyItems_cons level) fun x hx => ih x hx (level + 1)
      simpa [prettyChars] using Spelling.array spelled
  | @object ms names values ih =>
    cases ms with
    | nil => exact .emptyObject spaces_nil
    | cons m ms =>
      have named : ∀ x ∈ m :: ms, ∃ name, x.1 = some name := by
        intro x hx
        obtain ⟨name, hn, -⟩ := names x hx
        exact ⟨name, hn⟩
      obtain ⟨optional, v⟩ := m
      obtain ⟨name, rfl⟩ := named (optional, v) List.mem_cons_self
      have spelled := memberSpelling_of_print (spaces_newline (level + 1)) spaces_blank
        (spaces_newline level) rfl (prettyMembers_cons level) named
        fun x hx => ih x hx (level + 1)
      simpa [prettyChars] using Spelling.object spelled

/-- Documents survive being written over many lines, with a line feed behind them. -/
theorem Sound.parse?_pretty (h : Sound ok j) :
    Json.parse? (prettyChars 0 j ++ ['\n']) = some j := by
  have ends : Ends ['\n'] := by
    rintro c ⟨⟩
    decide
  rw [(h.spelling_pretty 0).parse?_append ends]
  rfl

end Foreman.Json

import Foreman.Proofs.Json.Line
import Foreman.Proofs.Report.Block

/-!
# Markers in documents

The markers consist of capital letters and underscores, which stand for themselves in a document and
which no escape is written with. So quoting neither makes nor destroys a marker, and a document has
no marker in it but those of its strings.
-/

namespace Foreman

open Marker (isLetter Quiet words)

namespace Json

/-- A character stands for itself, or there is a backslash and what follows it has no letter of the
markers. -/
theorem escapeChar_cases (c : Char) :
    escapeChar c = [c] ∧ 0x20 ≤ c.toNat ∨
      (c = '"' ∨ c = '\\' ∨ c.toNat < 0x20) ∧
        ∃ u, escapeChar c = '\\' :: u ∧ u.any isLetter = false := by
  have digits : ∀ n < 0x20, ('u' :: '0' :: '0' :: hexByte n).any isLetter = false := by decide
  unfold escapeChar
  split
  case h_8 =>
    split
    · rename_i control
      exact .inr ⟨.inr (.inr control), _, rfl, digits _ control⟩
    · rename_i plain
      exact .inl ⟨rfl, Nat.not_lt.1 plain⟩
  all_goals exact .inr ⟨by decide, _, rfl, by decide⟩

theorem kept_escapeChar (hw : w ∈ words) : Text.Kept escapeChar w where
  own c hc := by
    have letter := Marker.isLetter_of_mem_word hw c hc
    rcases escapeChar_cases c with ⟨h, -⟩ | ⟨rfl | rfl | control, -⟩
    · exact h
    · cases letter
    · cases letter
    · have bounds := Marker.toNat_of_isLetter letter
      omega
  other c hc := by
    rcases escapeChar_cases c with ⟨h, -⟩ | ⟨-, u, h, other⟩
    · simp [h, hc]
    · rw [h]
      refine ⟨List.cons_ne_nil _ _, fun d hd => ?_⟩
      rcases List.mem_cons.1 hd with rfl | hd
      · exact Marker.not_mem_word hw rfl
      · exact Marker.not_mem_word hw (Bool.eq_false_iff.2 (List.any_eq_false.1 other d hd))

/-- A text is quoted as it is, or a backslash shows that it was not. -/
theorem flatMap_escapeChar (s : List Char) :
    s.flatMap escapeChar = s ∧ (∀ c ∈ s, 0x20 ≤ c.toNat) ∨ '\\' ∈ s.flatMap escapeChar := by
  by_cases escaped : ∃ c ∈ s, ∃ u, escapeChar c = '\\' :: u
  · obtain ⟨c, hc, u, h⟩ := escaped
    exact .inr (List.mem_flatMap.2 ⟨c, hc, by simp [h]⟩)
  · have plain : ∀ c ∈ s, escapeChar c = [c] ∧ 0x20 ≤ c.toNat := by
      intro c hc
      rcases escapeChar_cases c with h | ⟨-, u, h, -⟩
      · exact h
      · exact (escaped ⟨c, hc, u, h⟩).elim
    exact .inl ⟨Text.flatMap_eq_self fun c hc => (plain c hc).1, fun c hc => (plain c hc).2⟩

theorem blank_flatMap_escapeChar (blank : Text.Blank s) :
    Text.Blank (s.flatMap escapeChar) ↔ ∀ c ∈ s, 0x20 ≤ c.toNat := by
  constructor
  · intro h
    rcases flatMap_escapeChar s with ⟨-, plain⟩ | escaped
    · exact plain
    · cases h _ escaped
  · intro plain c hc
    obtain ⟨d, hd, hc⟩ := List.mem_flatMap.1 hc
    rcases escapeChar_cases d with ⟨h, -⟩ | ⟨rfl | rfl | control, -⟩
    · rw [h, List.mem_singleton] at hc
      exact hc ▸ blank d hd
    · cases blank _ hd
    · cases blank _ hd
    · exact absurd (plain d hd) (Nat.not_le.2 control)

end Json

namespace Marker

/-- A string in which no marker occurs. -/
def Unmarked (s : String) : Prop := Quiet s.toList

theorem quiet_of_any (h : s.any isLetter = false) : Quiet s := by
  intro w hw inside
  obtain ⟨c, u, rfl⟩ := List.exists_cons_of_ne_nil (word_ne_nil hw)
  have letter := isLetter_of_mem_word hw c List.mem_cons_self
  exact List.any_eq_false.1 h c (inside.subset List.mem_cons_self) letter

theorem Quiet.append_cons (ha : Quiet a) (hc : isLetter c = false) (hb : Quiet b) :
    Quiet (a ++ c :: b) :=
  fun w hw => not_infix_append_cons (not_mem_word hw hc) (ha w hw) (hb w hw)

theorem quiet_nil : Quiet [] := quiet_of_any rfl

theorem Quiet.cons (hb : Quiet b) (hc : isLetter c = false) : Quiet (c :: b) :=
  quiet_nil.append_cons hc hb

theorem quiet_flatMap_escapeChar : Quiet (s.flatMap Json.escapeChar) ↔ Quiet s := by
  have same (w : List Char) (hw : w ∈ words) : w <:+: s.flatMap Json.escapeChar ↔ w <:+: s :=
    (Json.kept_escapeChar hw).infix_flatMap_iff (word_ne_nil hw)
  constructor
  · exact fun h w hw inside => h w hw ((same w hw).2 inside)
  · exact fun h w hw inside => h w hw ((same w hw).1 inside)

theorem Quiet.quote (h : Quiet s) : Quiet (Json.quote s) :=
  ((quiet_flatMap_escapeChar.2 h).append_cons rfl quiet_nil).cons rfl

end Marker

namespace Json

open Marker

theorem isLetter_of_isDigit (h : Text.isDigit c = true) : isLetter c = false := by
  simp only [Text.isDigit, Bool.and_eq_true, decide_eq_true_eq] at h
  rw [← Bool.not_eq_true, isLetter, Text.isUpperAscii, Bool.or_eq_true, Bool.and_eq_true,
    decide_eq_true_eq, decide_eq_true_eq, beq_iff_eq]
  rintro (⟨upper, -⟩ | rfl)
  · exact absurd (Char.le_trans upper h.2) (by decide)
  · exact absurd h.2 (by decide)

theorem Number.WellFormed.quiet {n : Number} (h : n.WellFormed) : Quiet n.render := by
  apply quiet_of_any
  rw [List.any_eq_false]
  intro c hc
  rcases h.of_mem_render hc with digit | mark
  · rw [Bool.not_eq_true]
    exact isLetter_of_isDigit digit
  · have none : ['-', '+', '.', 'e'].any isLetter = false := by decide
    exact List.any_eq_false.1 none c mark

theorem quiet_compactItems (h : ∀ v ∈ vs, Quiet (compactChars v)) :
    ∃ c u, compactItems vs = c :: u ∧ isLetter c = false ∧ Quiet u := by
  induction vs with
  | nil => exact ⟨']', [], rfl, rfl, quiet_nil⟩
  | cons v vs ih =>
    obtain ⟨c, u, rest, hc, hu⟩ := ih fun x hx => h x (List.mem_cons_of_mem v hx)
    refine ⟨',', compactChars v ++ compactItems vs, rfl, rfl, ?_⟩
    rw [rest]
    exact (h v List.mem_cons_self).append_cons hc hu

theorem quiet_compactMembers
    (names : ∀ m ∈ ms, ∃ name, m.1 = some name ∧ Unmarked name)
    (values : ∀ m ∈ ms, Quiet (compactChars m.2)) :
    ∃ c u, compactMembers ms = c :: u ∧ isLetter c = false ∧ Quiet u := by
  induction ms with
  | nil => exact ⟨'\x7d', [], rfl, rfl, quiet_nil⟩
  | cons m ms ih =>
    obtain ⟨c, u, rest, hc, hu⟩ := ih (fun x hx => names x (List.mem_cons_of_mem m hx))
      fun x hx => values x (List.mem_cons_of_mem m hx)
    obtain ⟨optional, v⟩ := m
    obtain ⟨name, rfl, unmarked⟩ := names (optional, v) List.mem_cons_self
    have value : Quiet (compactChars v) := values (some name, v) List.mem_cons_self
    refine ⟨',', quoteText (some name) ++ ':' :: (compactChars v ++ compactMembers ms), ?_, rfl, ?_⟩
    · simp [compactMembers]
    · rw [rest]
      exact (Quiet.quote unmarked).append_cons rfl (value.append_cons hc hu)

/-- A document has no marker in it if its strings have none. -/
theorem Sound.quiet (h : Sound Unmarked j) : Quiet (compactChars j) := by
  induction h with
  | null => exact quiet_of_any (by decide)
  | bool b => cases b <;> exact quiet_of_any (by decide)
  | number h => exact h.quiet
  | string h => exact Quiet.quote h
  | @array vs items ih =>
    obtain ⟨c, u, rest, -, hu⟩ := quiet_compactItems ih
    cases vs with
    | nil => exact quiet_of_any (by decide)
    | cons v vs =>
      cases rest
      exact hu.cons rfl
  | @object ms names values ih =>
    obtain ⟨c, u, rest, -, hu⟩ := quiet_compactMembers names ih
    cases ms with
    | nil => exact quiet_of_any (by decide)
    | cons m ms =>
      cases rest
      exact hu.cons rfl

theorem Sound.compactMembers (h : Sound Unmarked (.object ms)) :
    ∃ c u, compactMembers ms = c :: u ∧ isLetter c = false ∧ Quiet u := by
  cases h with
  | object names values => exact quiet_compactMembers names fun m hm => (values m hm).quiet

end Json

end Foreman

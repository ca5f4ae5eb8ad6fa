import Foreman.Proofs.Json.Record
import Foreman.Proofs.Report.Escape

namespace Foreman.Json

/-- One member of an object is a text, and the others have no marker in them. -/
structure Bears (name : String) (ms : List (String × Json)) (text : String) : Prop where
  names : (ms.map Prod.fst).Nodup
  member : (name, .ofString text) ∈ ms
  unmarked : Marker.Unmarked name
  others : ∀ m ∈ ms, m.1 ≠ name → Marker.Unmarked m.1 ∧ Sound Marker.Unmarked m.2

theorem Bears.sound (h : Bears name ms text) : Sound (fun _ => True) (record ms) := by
  apply Sound.record
  intro m hm
  refine ⟨trivial, ?_⟩
  by_cases here : m.1 = name
  · have value : ms.lookup m.1 = some m.2 := lookup_of_mem_nodup h.names hm
    rw [here, lookup_of_mem_nodup h.names h.member] at value
    rw [← Option.some.inj value]
    exact .string trivial
  · exact (h.others m hm here).2.imp fun _ _ => trivial

theorem braces_compact_record (ms : List (String × Json)) :
    ∃ u, (record ms).compactChars = '\x7b' :: (u ++ ['\x7d']) := by
  have closed (ms : List (Option String × Json)) : ∃ u, compactMembers ms = u ++ ['\x7d'] := by
    induction ms with
    | nil => exact ⟨[], rfl⟩
    | cons m ms ih =>
      obtain ⟨u, rest⟩ := ih
      rw [compactMembers, rest, ← List.append_assoc]
      exact ⟨_, rfl⟩
  cases ms with
  | nil => exact ⟨[], rfl⟩
  | cons m ms =>
    obtain ⟨u, rest⟩ := closed (named ms)
    rw [record_eq, named_cons, compactChars, rest, ← List.append_assoc]
    exact ⟨_, rfl⟩

theorem trimmed_compact_record (ms : List (String × Json)) :
    Text.Trimmed (record ms).compactChars := by
  obtain ⟨u, braces⟩ := braces_compact_record ms
  rw [braces]
  constructor
  · rintro c ⟨⟩
    rfl
  · rw [← List.cons_append, List.getLast?_concat]
    rintro c ⟨⟩
    rfl

theorem compact_record_ne_nil (ms : List (String × Json)) : (record ms).compactChars ≠ [] := by
  obtain ⟨u, braces⟩ := braces_compact_record ms
  rw [braces]
  exact List.cons_ne_nil _ _

theorem isBlankText_compact_record (ms : List (String × Json)) :
    Text.isBlankText (record ms).compactChars = false := by
  obtain ⟨u, braces⟩ := braces_compact_record ms
  rw [braces]
  rfl

theorem body?_quote {m : Marker} {c : Char} {u : List Char} (hm : m ∈ Marker.all)
    (hc : Marker.isLetter c = false) (quiet : Marker.Quiet u) (text : List Char) :
    m.body? (quote text ++ c :: u) = (m.body? text).map (·.flatMap escapeChar) := by
  have kept : ∀ w ∈ Marker.words, Text.Kept escapeChar w := fun w => kept_escapeChar
  calc m.body? (quote text ++ c :: u)
      = m.body? ([] ++ '"' :: (text.flatMap escapeChar ++ '"' :: c :: u)) := by
        simp [quote]
    _ = m.body? (text.flatMap escapeChar ++ '"' :: c :: u) :=
        Marker.body?_append_cons hm rfl (Marker.quiet_nil.absent hm) _
    _ = m.body? (text.flatMap escapeChar) :=
        Marker.body?_append_cons_right hm rfl ((quiet.cons hc).absent hm) _
    _ = (m.body? text).map (·.flatMap escapeChar) := Marker.body?_flatMap hm kept text

/-- The members of an object behind the brace or comma before the first of them. -/
def membersText : List (String × Json) → List Char
  | [] => []
  | (name, v) :: ms => quote name.toList ++ ':' :: (v.compactChars ++ compactMembers (named ms))

theorem compactMembers_eq (ne : ms ≠ []) :
    compactMembers (named ms) = ',' :: membersText ms := by
  cases ms with
  | nil => exact (ne rfl).elim
  | cons m ms => simp [compactMembers, membersText, quoteText]

theorem compactChars_record_eq (ne : ms ≠ []) :
    (record ms).compactChars = '\x7b' :: membersText ms := by
  cases ms with
  | nil => exact (ne rfl).elim
  | cons m ms => simp [record_eq, compactChars, membersText, quoteText]

theorem Bears.tail (h : Bears name (p :: ms) text) (later : (name, ofString text) ∈ ms) :
    Bears name ms text where
  names := (List.nodup_cons.1 h.names).2
  member := later
  unmarked := h.unmarked
  others q hq := h.others q (List.mem_cons_of_mem p hq)

/-- The members quote each block of the text. -/
theorem Bears.body?_membersText {m : Marker} (hm : m ∈ Marker.all) (h : Bears name ms text) :
    m.body? (membersText ms) = (m.body? text.toList).map (·.flatMap escapeChar) := by
  induction ms with
  | nil => cases h.member
  | cons p ps ih =>
    obtain ⟨fresh, names⟩ := List.nodup_cons.1 h.names
    rcases List.mem_cons.1 h.member with rfl | later
    · have quiet : ∀ q ∈ ps, Marker.Unmarked q.1 ∧ Sound Marker.Unmarked q.2 :=
        fun q hq => h.others q (List.mem_cons_of_mem _ hq) (ne_of_mem fresh hq)
      have sound := Sound.record quiet
      rw [record_eq] at sound
      obtain ⟨c, u, rest, hc, hu⟩ := sound.compactMembers
      rw [membersText, Marker.body?_append_cons hm rfl ((Marker.Quiet.quote h.unmarked).absent hm),
        rest]
      exact body?_quote hm hc hu text.toList
    · have other : p.1 ≠ name := (ne_of_mem fresh later).symm
      obtain ⟨quietName, quietValue⟩ := h.others p List.mem_cons_self other
      rw [membersText, Marker.body?_append_cons hm rfl ((Marker.Quiet.quote quietName).absent hm),
        compactMembers_eq (List.ne_nil_of_mem later),
        Marker.body?_append_cons hm rfl (quietValue.quiet.absent hm), ih (h.tail later)]

theorem Bears.body? {m : Marker} (h : Bears name ms text) (hm : m ∈ Marker.all) :
    m.body? (record ms).compactChars = (m.body? text.toList).map (·.flatMap escapeChar) := by
  have nothing := Marker.quiet_nil.absent hm
  have brace := Marker.body?_append_cons hm (c := '\x7b') rfl nothing (membersText ms)
  rw [compactChars_record_eq (List.ne_nil_of_mem h.member), ← List.nil_append (_ :: _), brace]
  exact h.body?_membersText hm

end Foreman.Json

import Foreman.Proofs.Text.Blank
import Foreman.Text.Search

namespace Foreman.Text

/-- A line of the text begins with the character, apart from white space. -/
def Leads (c : Char) (s : List Char) : Prop :=
  ∃ y z, Blank y ∧ (s = y ++ c :: z ∨ ∃ x, s = x ++ '\n' :: (y ++ c :: z))

variable {s p q : List Char} {qs : List (List Char)}

theorem pieces_cons (s : List Char) :
    ∃ q qs, pieces '\n' s = q :: qs ∧ q <+: s ∧ ∀ p ∈ qs, ∃ x z, s = x ++ '\n' :: (p ++ z) := by
  induction s with
  | nil => exact ⟨[], [], rfl, List.nil_prefix, by simp⟩
  | cons c s ih =>
    obtain ⟨q, qs, hp, first, others⟩ := ih
    by_cases feed : c = '\n'
    · subst feed
      refine ⟨[], q :: qs, by simp [pieces, hp], List.nil_prefix, ?_⟩
      intro p hm
      rcases List.mem_cons.1 hm with rfl | hm
      · obtain ⟨z, rfl⟩ := first
        exact ⟨[], z, rfl⟩
      · obtain ⟨x, z, rfl⟩ := others p hm
        exact ⟨'\n' :: x, z, rfl⟩
    · refine ⟨c :: q, qs, by simp [pieces, hp, feed], List.cons_prefix_cons.2 ⟨rfl, first⟩, ?_⟩
      intro p hm
      obtain ⟨x, z, rfl⟩ := others p hm
      exact ⟨c :: x, z, rfl⟩

theorem mem_tail_pieces (x : List Char) (hp : p ∈ pieces '\n' s) :
    p ∈ (pieces '\n' (x ++ '\n' :: s)).tail := by
  induction x with
  | nil => simpa [pieces] using hp
  | cons c x ih =>
    obtain ⟨q, qs, hq, -, -⟩ := pieces_cons (x ++ '\n' :: s)
    rw [hq] at ih
    by_cases feed : c = '\n'
    · simp [pieces, hq, feed, List.mem_of_mem_tail ih]
    · simpa [pieces, hq, feed] using ih

theorem head?_trim_append (hy : Blank y) (hc : isBlank c = false) (z : List Char) :
    (trim (y ++ c :: z)).head? = some c := by
  obtain ⟨a, t, b, hs, ha, ht, hb⟩ := exists_trimmed (c :: z)
  have inside : c ∈ a ++ (t ++ b) := hs ▸ List.mem_cons_self
  cases a with
  | cons d a =>
    cases hs
    exact (not_mem_of_blank ha hc List.mem_cons_self).elim
  | nil =>
    cases t with
    | nil => exact (not_mem_of_blank hb hc inside).elim
    | cons d t =>
      rw [hs, List.nil_append, ht.trim_eq hy hb]
      cases hs
      rfl

theorem exists_of_head?_trim (h : (trim s).head? = some c) : ∃ y z, s = y ++ c :: z ∧ Blank y := by
  obtain ⟨a, t, b, rfl, ha, ht, hb⟩ := exists_trimmed s
  rw [ht.trim_eq ha hb] at h
  obtain ⟨t, rfl⟩ := List.head?_eq_some_iff.1 h
  exact ⟨a, t ++ b, rfl, ha⟩

theorem blank_singleton (hc : isBlank c = true) : Blank [c] := by
  intro d hd
  rwa [List.mem_singleton.1 hd]

theorem trim_chomp (p : List Char) : trim (chomp p) = trim p := by
  rw [chomp]
  split
  · rename_i last
    obtain ⟨q, rfl⟩ := List.getLast?_eq_some_iff.1 last
    rw [List.dropLast_concat]
    exact (trim_append_blank blank_nil (blank_singleton rfl) q).symm
  · rfl

/-- The lines of a text are its pieces up to white space, apart from an empty one at the end. -/
theorem exists_line (hp : p ∈ pieces '\n' s) (ne : trim p ≠ []) :
    ∃ line ∈ lines s, trim line = trim p := by
  rw [lines]
  rcases List.eq_nil_or_concat (pieces '\n' s) with empty | ⟨parts, last, split⟩
  · rw [empty] at hp
    cases hp
  · rw [split, List.concat_eq_append] at hp ⊢
    rw [List.dropLast_concat, List.getLast?_concat]
    rcases List.mem_append.1 hp with hp | hp
    · exact ⟨chomp p, List.mem_append_left _ (List.mem_map_of_mem hp), trim_chomp p⟩
    · rw [← List.mem_singleton.1 hp]
      cases p with
      | nil => exact (ne rfl).elim
      | cons c p => exact ⟨c :: p, List.mem_append_right _ List.mem_cons_self, rfl⟩

theorem exists_piece (hl : line ∈ lines s) : ∃ p ∈ pieces '\n' s, trim line = trim p := by
  rw [lines, List.mem_append, List.mem_map] at hl
  rcases hl with ⟨p, hp, rfl⟩ | hl
  · exact ⟨p, List.dropLast_subset _ hp, trim_chomp p⟩
  · refine ⟨line, ?_, rfl⟩
    split at hl
    · cases hl
    · cases hl
    · rename_i p _ last
      rw [List.mem_singleton.1 hl]
      exact List.mem_of_getLast? last

theorem leads_of_line (hl : line ∈ lines s) (h : (trim line).head? = some c) : Leads c s := by
  obtain ⟨p, hp, same⟩ := exists_piece hl
  rw [same] at h
  obtain ⟨y, z, rfl, hy⟩ := exists_of_head?_trim h
  obtain ⟨q, qs, hq, first, others⟩ := pieces_cons s
  rw [hq] at hp
  rcases List.mem_cons.1 hp with rfl | hp
  · obtain ⟨r, rfl⟩ := first
    exact ⟨y, z ++ r, hy, .inl (by simp)⟩
  · obtain ⟨x, r, rfl⟩ := others _ hp
    exact ⟨y, z ++ r, hy, .inr ⟨x, by simp⟩⟩

theorem Leads.of_trim (h : Leads c (trim s)) : Leads c s := by
  obtain ⟨a, t, b, rfl, ha, ht, hb⟩ := exists_trimmed s
  rw [ht.trim_eq ha hb] at h
  obtain ⟨y, z, hy, rfl | ⟨x, rfl⟩⟩ := h
  · exact ⟨a ++ y, z ++ b, ha.append hy, .inl (by simp)⟩
  · exact ⟨y, z ++ b, hy, .inr ⟨a ++ x, by simp⟩⟩

theorem exists_piece_of_blank (hy : Blank y) (hc : isBlank c = false) (z : List Char) :
    ∃ p ∈ pieces '\n' (y ++ c :: z), (trim p).head? = some c := by
  induction y with
  | nil =>
    obtain ⟨q, qs, hq, -, -⟩ := pieces_cons z
    have noFeed : c ≠ '\n' := by
      rintro rfl
      cases hc
    exact ⟨c :: q, by simp [pieces, hq, noFeed], head?_trim_append blank_nil hc q⟩
  | cons d y ih =>
    obtain ⟨p, hp, first⟩ := ih fun e he => hy e (List.mem_cons_of_mem d he)
    obtain ⟨q, qs, hq, -, -⟩ := pieces_cons (y ++ c :: z)
    rw [hq] at hp
    by_cases feed : d = '\n'
    · exact ⟨p, by simp [pieces, hq, feed, List.mem_cons.1 hp], first⟩
    · rcases List.mem_cons.1 hp with rfl | hp
      · have space : trim (d :: p) = trim p := by
          simpa using trim_append_blank (blank_singleton (hy d List.mem_cons_self)) blank_nil p
        exact ⟨d :: p, by simp [pieces, hq, feed], space ▸ first⟩
      · exact ⟨p, by simp [pieces, hq, feed, hp], first⟩

theorem Leads.exists_line (h : Leads c s) (hc : isBlank c = false) :
    ∃ line ∈ lines s, (trim line).head? = some c := by
  obtain ⟨y, z, hy, place⟩ := h
  obtain ⟨p, hp, first⟩ := exists_piece_of_blank hy hc z
  have piece : p ∈ pieces '\n' s := by
    rcases place with rfl | ⟨x, rfl⟩
    · exact hp
    · exact List.mem_of_mem_tail (mem_tail_pieces x hp)
  have ne : trim p ≠ [] := by
    intro empty
    rw [empty] at first
    cases first
  obtain ⟨line, hl, same⟩ := Text.exists_line piece ne
  exact ⟨line, hl, same ▸ first⟩

theorem pieces_of_not_mem (h : c ∉ s) : pieces c s = [s] := by
  induction s with
  | nil => rfl
  | cons d s ih =>
    obtain ⟨ne, h⟩ := List.ne_and_not_mem_of_not_mem_cons h
    rw [pieces, if_neg ne.symm, ih h]

theorem pieces_append_cons (h : c ∉ a) (s : List Char) :
    pieces c (a ++ c :: s) = a :: pieces c s := by
  induction a with
  | nil => simp [pieces]
  | cons d a ih =>
    obtain ⟨ne, h⟩ := List.ne_and_not_mem_of_not_mem_cons h
    rw [List.cons_append, pieces, if_neg ne.symm, ih h]

theorem lines_of_not_mem (h : '\n' ∉ s) (ne : s ≠ []) : lines s = [s] := by
  obtain ⟨c, s, rfl⟩ := List.exists_cons_of_ne_nil ne
  rw [lines, pieces_of_not_mem h]
  rfl

theorem chomp_of_not_mem (h : '\r' ∉ s) : chomp s = s := by
  rw [chomp, if_neg fun last => h (List.mem_of_getLast? last)]

/-- A line that is ended is the first one. -/
theorem lines_append_feed (ha : '\n' ∉ a) (s : List Char) :
    lines (a ++ '\n' :: s) = chomp a :: lines s := by
  obtain ⟨q, qs, split, -, -⟩ := pieces_cons s
  rw [lines, pieces_append_cons ha, lines, split, List.dropLast_cons_cons, List.getLast?_cons_cons]
  rfl

theorem lines_append_cons (ha : '\n' ∉ a) (h : '\n' ∉ s) (ne : s ≠ []) :
    lines (a ++ '\n' :: s) = [chomp a, s] := by
  rw [lines_append_feed ha, lines_of_not_mem h ne]

end Foreman.Text

import Foreman.Text.Blank

namespace Foreman.Text

variable {s t : List Char}

theorem trimEnd_cons (c : Char) (s : List Char) :
    trimEnd (c :: s) =
      if trimEnd s = [] then (if isBlank c then [] else [c]) else c :: trimEnd s := by
  simp only [trimEnd, List.reverse_cons, List.reverse_eq_nil_iff, List.dropWhile_append]
  split
  · simp_all [List.dropWhile]
    split <;> simp_all
  · simp_all

theorem trimEnd_prefix (s : List Char) : trimEnd s <+: s := by
  have suffix := (List.dropWhile_suffix isBlank : s.reverse.dropWhile isBlank <:+ s.reverse)
  rw [← List.reverse_prefix, List.reverse_reverse] at suffix
  exact suffix

theorem trimEnd_append {s : List Char} (unspaced : ∀ c ∈ s, isBlank c = false) (t : List Char) :
    trimEnd (s ++ t) = s ++ trimEnd t := by
  induction s with
  | nil => rfl
  | cons c s ih =>
    have solid : isBlank c = false := unspaced c List.mem_cons_self
    rw [List.cons_append, trimEnd_cons, ih fun d hd => unspaced d (List.mem_cons_of_mem c hd),
      List.cons_append]
    split
    · rename_i empty
      rw [solid, empty]
      rfl
    · rfl

def Blank (s : List Char) : Prop := ∀ c ∈ s, isBlank c = true

/-- Neither end of the text is white space. -/
structure Trimmed (s : List Char) : Prop where
  first : ∀ c ∈ s.head?, isBlank c = false
  last : ∀ c ∈ s.getLast?, isBlank c = false

theorem trimmed_of_solid (h : ∀ c ∈ s, isBlank c = false) : Trimmed s where
  first c hc := h c (List.mem_of_mem_head? hc)
  last c hc := h c (List.mem_of_mem_getLast? hc)

/-- White space between two texts is not at an end. -/
theorem Trimmed.append (hs : Trimmed s) (ne : s ≠ []) (ht : Trimmed t) (ne' : t ≠ [])
    (m : List Char) : Trimmed (s ++ (m ++ t)) where
  first c hc := by
    obtain ⟨d, r, rfl⟩ := List.exists_cons_of_ne_nil ne
    exact hs.first c hc
  last c hc := by
    rw [← List.append_assoc, List.getLast?_append, List.getLast?_eq_some_getLast ne'] at hc
    exact ht.last c (by rwa [List.getLast?_eq_some_getLast ne'])

theorem isBlankText_iff : isBlankText s = true ↔ Blank s := List.all_eq_true

theorem Blank.append (hs : Blank s) (ht : Blank t) : Blank (s ++ t) := by
  intro c hc
  rcases List.mem_append.1 hc with h | h
  · exact hs c h
  · exact ht c h

theorem takeWhile_blank (s : List Char) : Blank (s.takeWhile isBlank) :=
  List.all_eq_true.1 List.all_takeWhile

theorem head?_dropWhile_blank (s : List Char) :
    ∀ c ∈ (s.dropWhile isBlank).head?, isBlank c = false := by
  intro c hc
  have stop := List.head?_dropWhile_not isBlank s
  rw [Option.mem_def.1 hc] at stop
  exact stop

/-- A text lies between white space. -/
theorem exists_trimmed (s : List Char) :
    ∃ a t b, s = a ++ (t ++ b) ∧ Blank a ∧ Trimmed t ∧ Blank b := by
  have front : s = s.takeWhile isBlank ++ trimStart s := List.takeWhile_append_dropWhile.symm
  have back : trimStart s = trim s ++ ((trimStart s).reverse.takeWhile isBlank).reverse := by
    have reversed := congrArg List.reverse
      (List.takeWhile_append_dropWhile (p := isBlank) (l := (trimStart s).reverse))
    rw [List.reverse_append, List.reverse_reverse] at reversed
    exact reversed.symm
  refine ⟨_, trim s, _, back ▸ front, takeWhile_blank s, ⟨?_, ?_⟩, ?_⟩
  · intro c hc
    apply head?_dropWhile_blank s
    have begins : (trimStart s).head? = some c := by
      rw [back, List.head?_append, Option.mem_def.1 hc]
      rfl
    exact begins
  · intro c hc
    apply head?_dropWhile_blank (trimStart s).reverse
    rwa [trim, trimEnd, List.getLast?_reverse] at hc
  · intro c hc
    exact takeWhile_blank _ c (List.mem_reverse.1 hc)

theorem trimEnd_append_blank (hb : Blank b) (s : List Char) : trimEnd (s ++ b) = trimEnd s := by
  have blank : ∀ c ∈ b.reverse, isBlank c = true := fun c hc => hb c (List.mem_reverse.1 hc)
  rw [trimEnd, List.reverse_append, List.dropWhile_append_of_pos blank, ← trimEnd]

theorem trimStart_eq_self (h : ∀ c ∈ s.head?, isBlank c = false) : trimStart s = s := by
  cases s with
  | nil => rfl
  | cons c s => simp [trimStart, h c rfl]

theorem trimEnd_eq_self (h : ∀ c ∈ s.getLast?, isBlank c = false) : trimEnd s = s := by
  have reversed := trimStart_eq_self (s := s.reverse) (by rwa [List.head?_reverse])
  rw [trimEnd, ← trimStart, reversed, List.reverse_reverse]

/-- A text is trimmed to what lies between the white space. -/
theorem Trimmed.trim_eq (h : Trimmed t) (ha : Blank a) (hb : Blank b) :
    trim (a ++ (t ++ b)) = t := by
  rw [trim, trimStart, List.dropWhile_append_of_pos ha, ← trimStart]
  cases t with
  | nil =>
    have gone : (b ++ []).dropWhile isBlank = [] := List.dropWhile_append_of_pos hb
    rw [List.append_nil] at gone
    rw [List.nil_append, trimStart, gone]
    rfl
  | cons c t =>
    have start : trimStart (c :: t ++ b) = c :: t ++ b := trimStart_eq_self fun d hd => h.first d hd
    rw [start, trimEnd_append_blank hb, trimEnd_eq_self h.last]

theorem blank_nil : Blank [] := by
  rintro c ⟨⟩

theorem Trimmed.trim_eq_self (h : Trimmed t) : trim t = t := by
  simpa using h.trim_eq blank_nil blank_nil

theorem trimmed_trim (s : List Char) : Trimmed (trim s) := by
  obtain ⟨a, t, b, rfl, ha, ht, hb⟩ := exists_trimmed s
  rwa [ht.trim_eq ha hb]

/-- White space around a text makes no difference to what is left of it. -/
theorem trim_append_blank (hx : Blank x) (hy : Blank y) (s : List Char) :
    trim (x ++ (s ++ y)) = trim s := by
  obtain ⟨a, t, b, rfl, ha, ht, hb⟩ := exists_trimmed s
  have whole : x ++ ((a ++ (t ++ b)) ++ y) = (x ++ a) ++ (t ++ (b ++ y)) := by simp
  rw [whole, ht.trim_eq (hx.append ha) (hb.append hy), ht.trim_eq ha hb]

theorem not_mem_of_blank (hs : Blank s) (hc : isBlank c = false) : c ∉ s := by
  intro h
  rw [hs c h] at hc
  cases hc

theorem mem_trim (hc : isBlank c = false) : c ∈ trim s ↔ c ∈ s := by
  obtain ⟨a, t, b, rfl, ha, ht, hb⟩ := exists_trimmed s
  simp [ht.trim_eq ha hb, not_mem_of_blank ha hc, not_mem_of_blank hb hc]

theorem trim_eq_nil : trim s = [] ↔ Blank s := by
  obtain ⟨a, t, b, rfl, ha, ht, hb⟩ := exists_trimmed s
  rw [ht.trim_eq ha hb]
  constructor
  · rintro rfl
    exact ha.append hb
  · intro blank
    cases t with
    | nil => rfl
    | cons c t => exact (not_mem_of_blank blank (ht.first c rfl) (by simp)).elim

theorem content?_eq_none : content? s = none ↔ Blank s := by
  rw [← trim_eq_nil, content?]
  split <;> simp_all

end Foreman.Text

import Foreman.Text.Search

namespace Foreman

theorem infix_or_of_append_cons {a b l w r : List Char} (hc : c ∉ w)
    (h : a ++ c :: b = l ++ w ++ r) :
    w <:+: a ∨ ∃ l', l = a ++ c :: l' ∧ b = l' ++ w ++ r := by
  rw [List.append_assoc] at h
  rcases List.append_eq_append_iff.1 h with ⟨m, rfl, hm⟩ | ⟨m, rfl, hm⟩
  · cases m with
    | nil =>
      cases w with
      | nil => exact .inl List.nil_infix
      | cons d w =>
        cases hm
        exact (hc List.mem_cons_self).elim
    | cons d m =>
      cases hm
      exact .inr ⟨m, rfl, (List.append_assoc ..).symm⟩
  · rcases List.append_eq_append_iff.1 hm with ⟨n, rfl, hn⟩ | ⟨n, rfl, hn⟩
    · exact .inl ⟨l, n, List.append_assoc ..⟩
    · cases n with
      | nil => exact .inl ⟨l, [], by simp⟩
      | cons d n =>
        cases hn
        exact (hc (by simp)).elim

theorem infix_append_cons_iff {a b w : List Char} (hc : c ∉ w) :
    w <:+: a ++ c :: b ↔ w <:+: a ∨ w <:+: b := by
  constructor
  · rintro ⟨l, r, h⟩
    rcases infix_or_of_append_cons hc h.symm with left | ⟨l', -, rfl⟩
    · exact .inl left
    · exact .inr ⟨l', r, rfl⟩
  · intro h
    rcases h with left | right
    · exact left.trans (List.prefix_append a (c :: b)).isInfix
    · exact right.trans ⟨a ++ [c], [], by simp⟩

theorem not_infix_append_cons {a b w : List Char} (hc : c ∉ w) (ha : ¬ w <:+: a)
    (hb : ¬ w <:+: b) : ¬ w <:+: a ++ c :: b := by
  rw [infix_append_cons_iff hc, not_or]
  exact ⟨ha, hb⟩

theorem not_prefix_append_cons {w x : List Char} (hc : c ∉ x) (absent : ¬ x <:+: w)
    (v : List Char) : ¬ x <+: w ++ c :: v := by
  rintro ⟨r, hr⟩
  have whole : w ++ c :: v = [] ++ x ++ r := hr.symm
  rcases infix_or_of_append_cons hc whole with inside | ⟨l, hl, -⟩
  · exact absent inside
  · cases w <;> cases hl

theorem eq_or_of_append_cons {a b a' b' : List Char} (ha : c ∉ a)
    (h : a ++ c :: b = a' ++ c :: b') :
    a = a' ∧ b = b' ∨ ∃ m, a' = a ++ c :: m ∧ b = m ++ c :: b' := by
  rcases List.append_eq_append_iff.1 h with ⟨m, rfl, hm⟩ | ⟨m, rfl, hm⟩
  · cases m with
    | nil => simp_all
    | cons d m =>
      cases hm
      exact .inr ⟨m, rfl, rfl⟩
  · cases m with
    | nil => simp_all
    | cons d m =>
      cases hm
      exact (ha (by simp)).elim

theorem prefix_append_cons_iff {s w : List Char} (hc : c ∉ w) (b : List Char) :
    w <+: s ++ c :: b ↔ w <+: s := by
  constructor
  · rintro ⟨r, hr⟩
    rcases List.append_eq_append_iff.1 hr with ⟨m, rfl, -⟩ | ⟨m, rfl, hm⟩
    · exact List.prefix_append w m
    · cases m with
      | nil => simp
      | cons d m =>
        cases hm
        exact (hc (by simp)).elim
  · exact fun h => h.trans (List.prefix_append s (c :: b))

namespace Text

variable {w s a b : List Char}

theorem offset?_eq_none : offset? w s = none ↔ ¬ w <:+: s := by
  induction s with
  | nil => cases w <;> simp [offset?, List.infix_nil]
  | cons c s ih =>
    rw [offset?, List.infix_cons_iff, ← List.isPrefixOf_iff_prefix]
    split
    · simp_all
    · simp_all

/-- The first occurrence, and none before it. -/
theorem offset?_eq_some :
    offset? w s = some i ↔ i ≤ s.length ∧ w <+: s.drop i ∧ ∀ k < i, ¬ w <+: s.drop k := by
  induction s generalizing i with
  | nil =>
    cases w with
    | nil => cases i <;> simp [offset?]
    | cons d w => simp [offset?]
  | cons c s ih =>
    rw [offset?]
    split
    · rename_i here
      rw [List.isPrefixOf_iff_prefix] at here
      constructor
      · rintro ⟨⟩
        exact ⟨Nat.zero_le _, here, fun k hk => by omega⟩
      · rintro ⟨-, -, first⟩
        cases i with
        | zero => rfl
        | succ i => exact (first 0 (Nat.zero_lt_succ i) here).elim
    · rename_i here
      rw [List.isPrefixOf_iff_prefix] at here
      cases i with
      | zero => simp [here]
      | succ i =>
        simp only [Option.map_eq_some_iff, Nat.add_right_cancel_iff, exists_eq_right, ih,
          List.length_cons, Nat.add_le_add_iff_right, List.drop_succ_cons]
        constructor
        · rintro ⟨bound, found, first⟩
          refine ⟨bound, found, fun k hk => ?_⟩
          cases k with
          | zero => exact here
          | succ k => exact first k (Nat.lt_of_succ_lt_succ hk)
        · rintro ⟨bound, found, first⟩
          exact ⟨bound, found, fun k hk => first (k + 1) (Nat.succ_lt_succ hk)⟩

theorem head?_offsetsFrom (ne : w ≠ []) (pos : Nat) (s : List Char) :
    (offsetsFrom w pos 0 s).head? = (offset? w s).map (pos + ·) := by
  induction s generalizing pos with
  | nil => simp [offsetsFrom, offset?, ne]
  | cons c s ih =>
    rw [offsetsFrom, offset?]
    split
    · rfl
    · rw [ih, Option.map_map]
      congr 1
      funext i
      simp only [Function.comp_apply]
      omega

theorem prefix_of_mem_offsetsFrom (h : i ∈ offsetsFrom w pos skip s) :
    ∃ k, i = pos + k ∧ w <+: s.drop k := by
  induction s generalizing pos skip with
  | nil =>
    simp only [offsetsFrom, List.mem_ite_nil_right, List.mem_singleton] at h
    obtain ⟨⟨-, rfl⟩, rfl⟩ := h
    exact ⟨0, rfl, List.nil_prefix⟩
  | cons c s ih =>
    have later (skip : Nat) (h : i ∈ offsetsFrom w (pos + 1) skip s) :
        ∃ k, i = pos + k ∧ w <+: (c :: s).drop k := by
      obtain ⟨k, rfl, found⟩ := ih h
      exact ⟨k + 1, by omega, found⟩
    cases skip with
    | succ skip => exact later skip h
    | zero =>
      rw [offsetsFrom] at h
      split at h
      · rename_i here
        rcases List.mem_cons.1 h with rfl | h
        · exact ⟨0, rfl, List.isPrefixOf_iff_prefix.1 here⟩
        · exact later _ h
      · exact later 0 h

/-- The first occurrence of a word, with the text before and after it. -/
structure FirstAt (w s before after : List Char) : Prop where
  whole : s = before ++ (w ++ after)
  first : ∀ before' after', s = before' ++ (w ++ after') → before.length ≤ before'.length

theorem cut?_eq_some_iff : cut? w s = some (a, b) ↔ FirstAt w s a b := by
  rw [cut?, Option.map_eq_some_iff]
  constructor
  · rintro ⟨i, found, same⟩
    obtain ⟨bound, ⟨r, hr⟩, first⟩ := offset?_eq_some.1 found
    cases same
    have whole : s = s.take i ++ (w ++ s.drop (i + w.length)) := by
      rw [← List.drop_drop, ← hr, List.drop_left, hr, List.take_append_drop]
    refine ⟨whole, fun before' after' again => Nat.le_of_not_lt fun earlier => ?_⟩
    rw [List.length_take_of_le bound] at earlier
    refine first before'.length earlier ⟨after', ?_⟩
    rw [again, List.drop_left]
  · rintro ⟨rfl, first⟩
    refine ⟨a.length, offset?_eq_some.2 ⟨?_, ?_, fun k earlier begins => ?_⟩, ?_⟩
    · simp
    · rw [List.drop_left]
      exact List.prefix_append w b
    · obtain ⟨r, hr⟩ := begins
      have again := List.take_append_drop k (a ++ (w ++ b))
      rw [← hr] at again
      have := first _ r again.symm
      rw [List.length_take] at this
      omega
    · rw [List.take_left, ← List.drop_drop, List.drop_left, List.drop_left]

theorem cut?_eq_none : cut? w s = none ↔ ¬ w <:+: s := by
  rw [cut?, Option.map_eq_none_iff, offset?_eq_none]

theorem cut?_cons (w : List Char) (c : Char) (s : List Char) :
    cut? w (c :: s) =
      if w <+: c :: s then some ([], (c :: s).drop w.length)
      else (cut? w s).map fun p => (c :: p.1, p.2) := by
  simp only [cut?, offset?, ← List.isPrefixOf_iff_prefix]
  split
  · simp
  · cases offset? w s with
    | none => rfl
    | some i => simp [Nat.add_right_comm]

theorem cut?_self_append (ne : w ≠ []) (b : List Char) : cut? w (w ++ b) = some ([], b) := by
  cases w with
  | nil => exact (ne rfl).elim
  | cons c w =>
    rw [List.cons_append, cut?_cons, if_pos ⟨b, rfl⟩]
    simp

theorem cut?_eq_some (ne : w ≠ []) (h : cut? w s = some (a, b)) :
    s = a ++ (w ++ b) ∧ ¬ w <:+: a := by
  induction s generalizing a with
  | nil =>
    rw [cut?_eq_none.2 fun inside => ne (List.infix_nil.1 inside)] at h
    cases h
  | cons c s ih =>
    rw [cut?_cons] at h
    split at h
    · rename_i begins
      obtain ⟨r, hr⟩ := begins
      cases h
      rw [← hr]
      exact ⟨by simp, fun inside => ne (List.infix_nil.1 inside)⟩
    · rename_i here
      obtain ⟨p, hp, same⟩ := Option.map_eq_some_iff.1 h
      cases same
      obtain ⟨rfl, first⟩ := ih hp
      refine ⟨rfl, fun inside => ?_⟩
      rcases List.infix_cons_iff.1 inside with begins | inside
      · exact here (begins.trans (List.cons_prefix_cons.2 ⟨rfl, List.prefix_append ..⟩))
      · exact first inside

/-- A word whose first character does not come again does not overlap itself. -/
theorem cut?_append_self {u : List Char} (hc : c ∉ u) (ha : ¬ c :: u <:+: a) (b : List Char) :
    cut? (c :: u) (a ++ (c :: u ++ b)) = some (a, b) := by
  induction a with
  | nil => exact cut?_self_append (List.cons_ne_nil c u) b
  | cons d a ih =>
    have here : ¬ c :: u <+: d :: (a ++ (c :: u ++ b)) := by
      rintro ⟨r, hr⟩
      have split : c :: u ++ r = d :: a ++ (c :: u ++ b) := hr
      rcases List.append_eq_append_iff.1 split with ⟨m, hm, -⟩ | ⟨m, hm, tail⟩
      · exact ha ⟨[], m, by rw [hm]; rfl⟩
      · cases m with
        | nil => exact ha ⟨[], [], by simpa using hm⟩
        | cons e m =>
          obtain ⟨rfl, -⟩ := List.cons.inj tail
          obtain ⟨-, rfl⟩ := List.cons.inj hm
          exact hc (by simp)
    have later : ¬ c :: u <:+: a := fun inside => ha (inside.trans (List.suffix_cons d a).isInfix)
    rw [List.cons_append, cut?_cons, if_neg here, ih later]
    rfl

/-- The word is looked for behind a text that it does not occur in. -/
theorem cut?_append_cons (hc : c ∉ w) (ha : ¬ w <:+: a) (s : List Char) :
    cut? w (a ++ c :: s) = (cut? w s).map fun p => (a ++ c :: p.1, p.2) := by
  induction a with
  | nil =>
    have none : ¬ w <+: c :: s := not_prefix_append_cons hc ha s
    rw [List.nil_append, cut?_cons, if_neg none]
    rfl
  | cons d a ih =>
    have none : ¬ w <+: d :: (a ++ c :: s) := not_prefix_append_cons hc ha s
    have ha' : ¬ w <:+: a := fun h => ha (h.trans (List.suffix_cons d a).isInfix)
    rw [List.cons_append, cut?_cons, if_neg none, ih ha', Option.map_map]
    rfl

theorem cut?_append_cons_right (hc : c ∉ w) (hb : ¬ w <:+: b) (s : List Char) :
    cut? w (s ++ c :: b) = (cut? w s).map fun p => (p.1, p.2 ++ c :: b) := by
  induction s with
  | nil =>
    have ne : ¬ w <:+: [] := fun h => hb (h.trans List.nil_infix)
    rw [cut?_eq_none.2 ne]
    exact cut?_eq_none.2 (not_infix_append_cons hc ne hb)
  | cons d s ih =>
    simp only [List.cons_append, cut?_cons, ih]
    simp only [← List.cons_append, prefix_append_cons_iff hc]
    split
    · rename_i h
      rw [List.cons_append, ← List.cons_append, List.drop_append_of_le_length h.length_le]
      rfl
    · simp [Function.comp_def]

/-- The first occurrence stays the first one, whatever follows the text. -/
theorem cut?_append_of_eq_some (ne : w ≠ []) (h : cut? w s = some (a, b)) (x : List Char) :
    cut? w (s ++ x) = some (a, b ++ x) := by
  induction s generalizing a with
  | nil =>
    rw [cut?_eq_none.2 fun inside => ne (List.infix_nil.1 inside)] at h
    cases h
  | cons c s ih =>
    rw [cut?_cons] at h
    split at h
    · rename_i begins
      obtain ⟨r, hr⟩ := begins
      cases h
      rw [← hr, List.append_assoc, cut?_self_append ne]
      simp
    · rename_i here
      obtain ⟨p, hp, same⟩ := Option.map_eq_some_iff.1 h
      cases same
      obtain ⟨whole, -⟩ := cut?_eq_some ne hp
      have later : ¬ w <+: c :: s ++ x := by
        intro begins
        apply here
        refine List.prefix_of_prefix_length_le begins (List.prefix_append _ x) ?_
        rw [whole]
        simp only [List.length_cons, List.length_append]
        omega
      rw [List.cons_append] at later ⊢
      rw [cut?_cons, if_neg later, ih hp]
      rfl

/-- Characters that the word lacks are passed over. -/
theorem cut?_append_of_lacks (ne : w ≠ []) (ha : ∀ c ∈ a, c ∉ w) (s : List Char) :
    cut? w (a ++ s) = (cut? w s).map fun p => (a ++ p.1, p.2) := by
  induction a with
  | nil => simp
  | cons c a ih =>
    have here : ¬ w <:+: [] := fun h => ne (List.infix_nil.1 h)
    have first := cut?_append_cons (ha c List.mem_cons_self) here (a ++ s)
    rw [List.nil_append] at first
    rw [List.cons_append, first, ih fun d hd => ha d (List.mem_cons_of_mem c hd), Option.map_map]
    rfl

theorem flatMap_eq_self {f : Char → List Char} (h : ∀ c ∈ s, f c = [c]) : s.flatMap f = s := by
  induction s with
  | nil => rfl
  | cons c s ih =>
    rw [List.flatMap_cons, h c List.mem_cons_self, ih fun d hd => h d (List.mem_cons_of_mem c hd)]
    rfl

/-- `Kept f w` says that a rewriting `f` of characters neither changes the word nor writes any
character of it in place of another one. -/
structure Kept (f : Char → List Char) (w : List Char) : Prop where
  own : ∀ c ∈ w, f c = [c]
  other : ∀ c, c ∉ w → f c ≠ [] ∧ ∀ d ∈ f c, d ∉ w

namespace Kept

variable {f : Char → List Char}

theorem prefix_of_flatMap (h : Kept f w) (sub : ∀ c ∈ a, c ∈ w) (ha : a <+: s.flatMap f) :
    a <+: s := by
  induction s generalizing a with
  | nil => exact ha
  | cons c s ih =>
    cases a with
    | nil => exact List.nil_prefix
    | cons x a =>
      have inside := sub x List.mem_cons_self
      rw [List.flatMap_cons] at ha
      by_cases hc : c ∈ w
      · rw [h.own c hc, List.singleton_append, List.cons_prefix_cons] at ha
        have rest := ih (fun d hd => sub d (List.mem_cons_of_mem x hd)) ha.2
        exact List.cons_prefix_cons.2 ⟨ha.1, rest⟩
      · obtain ⟨ne, other⟩ := h.other c hc
        obtain ⟨d, u, hf⟩ := List.exists_cons_of_ne_nil ne
        rw [hf, List.cons_append, List.cons_prefix_cons] at ha
        exact (other d (by simp [hf]) (ha.1 ▸ inside)).elim

theorem cut?_flatMap (h : Kept f w) (ne : w ≠ []) (s : List Char) :
    cut? w (s.flatMap f) = (cut? w s).map fun p => (p.1.flatMap f, p.2.flatMap f) := by
  induction s with
  | nil => simp [cut?_eq_none.2 fun h => ne (List.infix_nil.1 h)]
  | cons c s ih =>
    by_cases begins : w <+: c :: s
    · obtain ⟨r, hr⟩ := begins
      rw [← hr, List.flatMap_append, flatMap_eq_self h.own, cut?_self_append ne,
        cut?_self_append ne]
      rfl
    · have later : cut? w (c :: s) = (cut? w s).map fun p => (c :: p.1, p.2) := by
        rw [cut?_cons, if_neg begins]
      rw [later, Option.map_map]
      by_cases hc : c ∈ w
      · have begins' : ¬ w <+: c :: s.flatMap f := by
          intro hw
          apply begins
          apply h.prefix_of_flatMap fun _ => id
          rwa [List.flatMap_cons, h.own c hc]
        rw [List.flatMap_cons, h.own c hc, List.singleton_append, cut?_cons, if_neg begins', ih,
          Option.map_map]
        simp [Function.comp_def, h.own c hc]
      · rw [List.flatMap_cons, cut?_append_of_lacks ne (h.other c hc).2, ih, Option.map_map]
        simp [Function.comp_def]

theorem infix_flatMap_iff (h : Kept f w) (ne : w ≠ []) : w <:+: s.flatMap f ↔ w <:+: s := by
  have absent := congrArg Option.isNone (h.cut?_flatMap ne s)
  rw [Option.isNone_map, Bool.eq_iff_iff, Option.isNone_iff_eq_none, Option.isNone_iff_eq_none,
    cut?_eq_none, cut?_eq_none] at absent
  exact Decidable.not_iff_not.1 absent

end Kept

end Text

end Foreman

import Foreman.Proofs.Redaction.Stability
import Foreman.Proofs.Text.Blank

/-!
# One secret in place of another

Two texts that quote different secrets at the same places, and are the same elsewhere, become equal
once the secrets are hidden. This outlasts all that is done to a text before it is redacted, as long
as no secret is cut into pieces.
-/

namespace Foreman

namespace Text

theorem substituteFrom_append (needle replacement s t : List Char) :
    substituteFrom needle replacement s.length (s ++ t) =
      substituteFrom needle replacement 0 t := by
  induction s with
  | nil => rfl
  | cons c s ih => exact ih

theorem substitute_append_self {needle : List Char} (ne : needle ≠ [])
    (replacement t : List Char) :
    substitute needle replacement (needle ++ t) =
      replacement ++ substitute needle replacement t := by
  cases needle with
  | nil => exact (ne rfl).elim
  | cons c needle =>
    have begins : (c :: needle).isPrefixOf (c :: (needle ++ t)) = true := by
      rw [List.isPrefixOf_iff_prefix]
      exact List.prefix_append (c :: needle) t
    simp only [substitute, List.cons_append, substituteFrom, begins, if_true]
    congr 1
    exact substituteFrom_append (c :: needle) replacement needle t

end Text

namespace Redactor

/-- `Exchanged s s' u u'` says that `u'` is `u` with `s'` in place of `s`, and that neither begins
anywhere else. -/
inductive Exchanged (s s' : List Char) : List Char → List Char → Prop where
  | nil : Exchanged s s' [] []
  | keep (absent : ¬ s <+: c :: u) (absent' : ¬ s' <+: c :: u') (rest : Exchanged s s' u u') :
      Exchanged s s' (c :: u) (c :: u')
  | swap (rest : Exchanged s s' u u') : Exchanged s s' (s ++ u) (s' ++ u')

/-- A secret without blanks that is not empty. -/
structure Solid (s : List Char) : Prop where
  ne_nil : s ≠ []
  unspaced : ∀ c ∈ s, Text.isBlank c = false

theorem Solid.trimStart_append (solid : Solid s) (u : List Char) :
    Text.trimStart (s ++ u) = s ++ u := by
  cases s with
  | nil => exact (solid.ne_nil rfl).elim
  | cons c s => simp [Text.trimStart, solid.unspaced c List.mem_cons_self]

theorem Solid.trimEnd_append (solid : Solid s) (u : List Char) :
    Text.trimEnd (s ++ u) = s ++ Text.trimEnd u :=
  Text.trimEnd_append solid.unspaced u

namespace Exchanged

variable {s s' u u' : List Char}

theorem substitute (h : Exchanged s s' u u') (ne : s ≠ []) (ne' : s' ≠ [])
    (replacement : List Char) :
    Text.substitute s replacement u = Text.substitute s' replacement u' := by
  induction h with
  | nil => rfl
  | @keep c u u' absent absent' rest ih =>
    simp only [Text.substitute, Text.substituteFrom, List.isPrefixOf_iff_prefix]
    rw [if_neg absent, if_neg absent']
    exact congrArg (c :: ·) ih
  | swap rest ih =>
    rw [Text.substitute_append_self ne, Text.substitute_append_self ne', ih]

theorem length_eq (h : Exchanged s s' u u') (same : s.length = s'.length) :
    u.length = u'.length := by
  induction h with
  | nil => rfl
  | keep absent absent' rest ih => simp [ih]
  | swap rest ih => simp [ih, same]

/-- What is left behind a cut, unless the cut goes through a secret. -/
theorem drop (h : Exchanged s s' u u') (same : s.length = s'.length)
    (whole : ∀ l r, u = l ++ s ++ r → n ≤ l.length ∨ l.length + s.length ≤ n) :
    Exchanged s s' (u.drop n) (u'.drop n) := by
  induction h generalizing n with
  | nil =>
    rw [List.drop_nil]
    exact .nil
  | @keep c u u' absent absent' rest ih =>
    cases n with
    | zero => exact .keep absent absent' rest
    | succ n =>
      apply ih
      intro l r hu
      have place := whole (c :: l) r (by rw [hu]; rfl)
      simp only [List.length_cons] at place
      omega
  | @swap u u' rest ih =>
    have front := whole [] u rfl
    simp only [List.length_nil, Nat.zero_add, Nat.le_zero_eq] at front
    rcases front with rfl | behind
    · exact .swap rest
    · have whole' : ∀ l r, u = l ++ s ++ r →
          n - s.length ≤ l.length ∨ l.length + s.length ≤ n - s.length := by
        intro l r hu
        have place := whole (s ++ l) r (by simp [hu])
        simp only [List.length_append] at place
        omega
      have gone : s.drop n = [] := List.drop_eq_nil_of_le behind
      have gone' : s'.drop n = [] := List.drop_eq_nil_of_le (same ▸ behind)
      simp only [List.drop_append, gone, gone', ← same, List.nil_append]
      exact ih whole'

theorem trimStart (h : Exchanged s s' u u') (solid : Solid s) (solid' : Solid s') :
    Exchanged s s' (Text.trimStart u) (Text.trimStart u') := by
  induction h with
  | nil => exact .nil
  | @keep c u u' absent absent' rest ih =>
    simp only [Text.trimStart, List.dropWhile_cons]
    split
    · exact ih
    · exact .keep absent absent' rest
  | @swap u u' rest ih =>
    rw [solid.trimStart_append, solid'.trimStart_append]
    exact .swap rest

theorem eq_nil_iff (h : Exchanged s s' u u') (ne : s ≠ []) (ne' : s' ≠ []) :
    u = [] ↔ u' = [] := by
  cases h with
  | nil => exact Iff.rfl
  | keep => simp
  | swap => simp [ne, ne']

theorem trimEnd (h : Exchanged s s' u u') (solid : Solid s) (solid' : Solid s') :
    Exchanged s s' (Text.trimEnd u) (Text.trimEnd u') := by
  induction h with
  | nil => exact .nil
  | @keep c u u' absent absent' rest ih =>
    have nothing := ih.eq_nil_iff solid.ne_nil solid'.ne_nil
    have still (w : List Char) (hw : w <+: c :: u) : ¬ s <+: w :=
      fun hs => absent (hs.trans hw)
    have still' (w : List Char) (hw : w <+: c :: u') : ¬ s' <+: w :=
      fun hs => absent' (hs.trans hw)
    rw [Text.trimEnd_cons, Text.trimEnd_cons]
    by_cases empty : Text.trimEnd u = []
    · rw [if_pos empty, if_pos (nothing.1 empty)]
      split
      · exact .nil
      · have alone (v : List Char) : [c] <+: c :: v := ⟨v, rfl⟩
        exact .keep (still _ (alone u)) (still' _ (alone u')) .nil
    · rw [if_neg empty, if_neg fun h => empty (nothing.2 h)]
      have ahead (v : List Char) : c :: Text.trimEnd v <+: c :: v :=
        List.cons_prefix_cons.2 ⟨rfl, Text.trimEnd_prefix v⟩
      exact .keep (still _ (ahead u)) (still' _ (ahead u')) ih
  | swap rest ih =>
    rw [solid.trimEnd_append, solid'.trimEnd_append]
    exact .swap ih

theorem trim (h : Exchanged s s' u u') (solid : Solid s) (solid' : Solid s') :
    Exchanged s s' (Text.trim u) (Text.trim u') :=
  (h.trimStart solid solid').trimEnd solid solid'

/-- A phrase may stand before the texts. It ends in a character that neither secret has, so that no
secret begins in it. -/
theorem behind (h : Exchanged s s' u u') (hc : c ∉ s) (hc' : c ∉ s') (absent : ¬ s <:+: w)
    (absent' : ¬ s' <:+: w) : Exchanged s s' (w ++ c :: u) (w ++ c :: u') := by
  induction w with
  | nil =>
    exact .keep (not_prefix_append_cons hc absent u) (not_prefix_append_cons hc' absent' u') h
  | cons d w ih =>
    have inner (x : List Char) (hx : ¬ x <:+: d :: w) : ¬ x <:+: w :=
      fun inside => hx (inside.trans (List.suffix_cons d w).isInfix)
    have rest := ih (inner s absent) (inner s' absent')
    exact .keep (not_prefix_append_cons hc absent u) (not_prefix_append_cons hc' absent' u') rest

end Exchanged

theorem secrets_ofValues_singleton (kept : isKept s = true) : (ofValues [s]).secrets = [s] := by
  simp [ofValues, kept, dropRepeats]

theorem Exchanged.redactChars {s s' : String} (h : Exchanged s.toList s'.toList u u')
    (kept : isKept s = true) (kept' : isKept s' = true) (solid : Solid s.toList)
    (solid' : Solid s'.toList) :
    (ofValues [s]).redactChars u = (ofValues [s']).redactChars u' := by
  simp only [Redactor.redactChars, secrets_ofValues_singleton kept,
    secrets_ofValues_singleton kept', hideSecrets, List.map_cons, List.map_nil, List.foldl_cons,
    List.foldl_nil]
  rw [h.substitute solid.ne_nil solid'.ne_nil]

theorem Exchanged.of_absent (absent : ¬ s <:+: u) (absent' : ¬ s' <:+: u) : Exchanged s s' u u := by
  induction u with
  | nil => exact .nil
  | cons c u ih =>
    rw [List.infix_cons_iff, not_or] at absent absent'
    exact .keep absent.1 absent'.1 (ih absent.2 absent'.2)

/-- A text with holes: what stands before the first hole, and what stands behind each of them. -/
structure Template where
  first : List Char
  rest : List (List Char)

namespace Template

variable {first piece : List Char} {rest : List (List Char)}

def fill (t : Template) (secret : List Char) : List Char :=
  t.first ++ t.rest.flatMap (secret ++ ·)

/-- Whether a secret stands in the text that it fills nowhere but in the holes. -/
def OnlyInHoles (t : Template) (secret : List Char) : Prop :=
  ∀ l r, t.fill secret = l ++ secret ++ r →
    ∃ k < t.rest.length, l = fill ⟨t.first, t.rest.take k⟩ secret

theorem OnlyInHoles.next {secret : List Char} (ne : secret ≠ [])
    (h : OnlyInHoles ⟨[], piece :: rest⟩ secret) : OnlyInHoles ⟨piece, rest⟩ secret := by
  intro l r hf
  obtain ⟨k, hk, hl⟩ := h (secret ++ l) r (by simp only [fill] at hf ⊢; simp [hf])
  cases k with
  | zero =>
    exact (ne (List.append_eq_nil_iff.1 hl).1).elim
  | succ k =>
    simp only [fill, List.take_succ_cons, List.flatMap_cons, List.nil_append, List.append_assoc,
      List.append_cancel_left_eq] at hl
    exact ⟨k, Nat.lt_of_succ_lt_succ hk, hl⟩

theorem OnlyInHoles.tail {secret : List Char} (h : OnlyInHoles ⟨c :: first, rest⟩ secret) :
    OnlyInHoles ⟨first, rest⟩ secret := by
  intro l r hf
  obtain ⟨k, hk, hl⟩ := h (c :: l) r (by simp only [fill] at hf ⊢; simp [hf])
  simp only [fill, List.cons_append, List.cons.injEq, true_and] at hl
  exact ⟨k, hk, hl⟩

theorem OnlyInHoles.not_prefix {secret : List Char} (h : OnlyInHoles ⟨c :: first, rest⟩ secret) :
    ¬ secret <+: fill ⟨c :: first, rest⟩ secret := by
  rintro ⟨r, hr⟩
  obtain ⟨k, -, hl⟩ := h [] r hr.symm
  cases hl

theorem exchanged (ne : s ≠ []) (ne' : s' ≠ []) (t : Template) (h : t.OnlyInHoles s)
    (h' : t.OnlyInHoles s') : Exchanged s s' (t.fill s) (t.fill s') := by
  obtain ⟨first, rest⟩ := t
  induction rest generalizing first with
  | nil =>
    induction first with
    | nil => exact .nil
    | cons c first ih => exact .keep h.not_prefix h'.not_prefix (ih h.tail h'.tail)
  | cons piece rest next =>
    induction first with
    | nil =>
      have filled := Exchanged.swap (next piece (h.next ne) (h'.next ne'))
      simp only [fill, List.flatMap_cons, List.nil_append, List.append_assoc] at filled ⊢
      exact filled
    | cons c first ih => exact .keep h.not_prefix h'.not_prefix (ih h.tail h'.tail)

/-- A secret stands only in the holes if it ends in a character that occurs nowhere else. -/
theorem onlyInHoles_of_last (hx : c ∉ x) (t : Template) (first : c ∉ t.first)
    (rest : ∀ piece ∈ t.rest, c ∉ piece) : t.OnlyInHoles (x ++ [c]) := by
  obtain ⟨start, pieces⟩ := t
  induction pieces generalizing start with
  | nil =>
    intro l r h
    simp only [fill, List.flatMap_nil, List.append_nil] at h
    exact (first (by simp [h])).elim
  | cons piece pieces ih =>
    intro l r h
    have start_x : c ∉ start ++ x := by simp_all
    have split : (start ++ x) ++ c :: fill ⟨piece, pieces⟩ (x ++ [c]) = (l ++ x) ++ c :: r := by
      simpa [fill] using h
    rcases eq_or_of_append_cons start_x split with ⟨same, -⟩ | ⟨m, hl, hm⟩
    · exact ⟨0, by simp, by simpa [fill] using (List.append_cancel_right same).symm⟩
    · have tail : ∃ l', l = start ++ x ++ c :: l' ∧ m = l' ++ x := by
        rcases List.append_eq_append_iff.1 hl with ⟨d, -, rfl⟩ | ⟨d, rfl, hd⟩
        · exact (hx (by simp)).elim
        · cases d with
          | nil =>
            rw [List.nil_append] at hd
            exact (hx (hd ▸ List.mem_cons_self)).elim
          | cons e d =>
            cases hd
            exact ⟨d, rfl, rfl⟩
      obtain ⟨l', rfl, rfl⟩ := tail
      have later : ∀ p ∈ pieces, c ∉ p := fun p hp => rest p (List.mem_cons_of_mem piece hp)
      obtain ⟨k, hk, rfl⟩ := ih piece (rest piece List.mem_cons_self) later l' r (by simp [hm])
      exact ⟨k + 1, Nat.succ_lt_succ hk, by simp [fill]⟩

theorem not_isBlankText_fill (solid : Solid s) (t : Template) (hole : t.rest ≠ []) :
    Text.isBlankText (t.fill s) = false := by
  obtain ⟨first, rest⟩ := t
  cases rest with
  | nil => exact (hole rfl).elim
  | cons piece rest =>
    obtain ⟨c, s, rfl⟩ := List.exists_cons_of_ne_nil solid.ne_nil
    have letter := solid.unspaced c List.mem_cons_self
    simp [Template.fill, Text.isBlankText, letter]

end Template

end Redactor

end Foreman

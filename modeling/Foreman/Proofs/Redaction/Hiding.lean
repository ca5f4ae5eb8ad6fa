import Foreman.Proofs.Redaction.Credential
import Foreman.Proofs.Text.Search
import Foreman.Redaction.Basic

/-!
# What a placeholder hides

A text in which placeholders stand for some pieces has nothing new in it: what it holds without
touching a bracket stood in the text before, or is part of the placeholder's own word. So nothing
that was hidden once comes back, whatever is hidden afterwards.
-/

namespace Foreman

/-- What one step brings about and every step keeps holds in the end. -/
theorem foldl_of_step {P : β → Prop} {f : β → α → β} {xs : List α} {b : β}
    (keep : ∀ b, ∀ x ∈ xs, P b → P (f b x)) (h : (∃ x ∈ xs, ∀ b, P (f b x)) ∨ P b) :
    P (xs.foldl f b) := by
  induction xs generalizing b with
  | nil =>
    rcases h with ⟨x, hx, -⟩ | h
    · cases hx
    · exact h
  | cons y ys ih =>
    apply ih
    · exact fun b x hx => keep b x (List.mem_cons_of_mem y hx)
    · rcases h with ⟨x, hx, brings⟩ | h
      · rcases List.mem_cons.1 hx with rfl | hx
        · exact .inr (brings b)
        · exact .inl ⟨x, hx, brings⟩
      · exact .inr (keep b y List.mem_cons_self h)

namespace Redactor

/-- `Hidden kept behind before s t` says that `t` is `s` with placeholders in place of some pieces,
where `s` stands behind the character `before`, `kept` holds at each place that stays, of the
character before it and the text from there on, and `behind` holds of the text behind each piece. -/
inductive Hidden (kept : Option Char → List Char → Prop) (behind : List Char → Prop) :
    Option Char → List Char → List Char → Prop where
  | nil : Hidden kept behind before [] []
  | keep (here : kept before (c :: s)) (rest : Hidden kept behind (some c) s t) :
      Hidden kept behind before (c :: s) (c :: t)
  | hide (piece : List Char) (next : behind s)
      (rest : Hidden kept behind (piece.getLast?.or before) s t) :
      Hidden kept behind before (piece ++ s) (placeholder ++ t)

variable {kept : Option Char → List Char → Prop} {behind : List Char → Prop}
  {before : Option Char} {l w r s t : List Char}

theorem infix_or_of_placeholder (opening : '[' ∉ w) (closing : ']' ∉ w)
    (h : placeholder ++ t = l ++ w ++ r) :
    w <:+: "REDACTED".toList ∨ ∃ l', l = placeholder ++ l' ∧ t = l' ++ w ++ r := by
  have unfolded : [] ++ '[' :: ("REDACTED".toList ++ ']' :: t) = l ++ w ++ r := h
  rcases infix_or_of_append_cons opening unfolded with none | ⟨l₁, rfl, h₁⟩
  · rw [List.infix_nil.1 none]
    exact .inl List.nil_infix
  · rcases infix_or_of_append_cons closing h₁ with word | ⟨l₂, rfl, h₂⟩
    · exact .inl word
    · exact .inr ⟨l₂, rfl, h₂⟩

theorem Hidden.begins (h : Hidden kept behind before s t) (opening : '[' ∉ w) (hw : w <+: t) :
    w <+: s := by
  induction h generalizing w with
  | nil => exact hw
  | keep here rest ih =>
    cases w with
    | nil => exact List.nil_prefix
    | cons d w =>
      obtain ⟨rfl, tail⟩ := List.cons_prefix_cons.1 hw
      have inner : '[' ∉ w := fun hm => opening (List.mem_cons_of_mem _ hm)
      exact List.cons_prefix_cons.2 ⟨rfl, ih inner tail⟩
  | hide piece next rest ih =>
    cases w with
    | nil => exact List.nil_prefix
    | cons d w =>
      obtain ⟨rfl, -⟩ := List.cons_prefix_cons.1 hw
      exact (opening List.mem_cons_self).elim

theorem getLast?_cons_or (c : Char) (l : List Char) (before : Option Char) :
    (c :: l).getLast?.or before = l.getLast?.or (some c) := by
  rw [List.getLast?_cons]
  cases l.getLast? <;> rfl

/-- What stands in the new text stood in the old one, at a place that stays, behind the same
character or else right behind a piece. -/
theorem Hidden.origin (h : Hidden kept behind before s t) (opening : '[' ∉ w) (closing : ']' ∉ w)
    (hb : before' = before ∨ behind s) (ht : t = l ++ w ++ r) :
    w <:+: "REDACTED".toList ∨ ∃ l' r', s = l' ++ w ++ r' ∧
      kept (l'.getLast?.or before) (w ++ r') ∧
        (l.getLast?.or before' = l'.getLast?.or before ∨ behind (w ++ r')) := by
  -- `before'` stands before the new text; the two differ once a piece has been hidden.
  induction h generalizing l before' with
  | nil =>
    obtain ⟨hl, hr⟩ := List.append_eq_nil_iff.1 ht.symm
    obtain ⟨-, rfl⟩ := List.append_eq_nil_iff.1 hl
    exact .inl List.nil_infix
  | @keep before c s t here rest ih =>
    cases l with
    | nil =>
      have stood : w <+: c :: s := (Hidden.keep here rest).begins opening ⟨r, ht.symm⟩
      obtain ⟨r', hr'⟩ := stood
      refine .inr ⟨[], r', hr'.symm, ?_, ?_⟩
      · rw [hr']
        exact here
      · rw [hr']
        exact hb
    | cons d l =>
      cases ht
      rcases ih (.inl rfl) rfl with word | ⟨l', r', rfl, stays, place⟩
      · exact .inl word
      · refine .inr ⟨c :: l', r', rfl, ?_, ?_⟩
        · rw [getLast?_cons_or]
          exact stays
        · rw [getLast?_cons_or, getLast?_cons_or]
          exact place
  | @hide s before t piece next rest ih =>
    rcases infix_or_of_placeholder opening closing ht with word | ⟨l₁, rfl, tail⟩
    · exact .inl word
    · -- What follows stands behind the closing bracket now, no longer behind the piece.
      have behind_bracket : some ']' = piece.getLast?.or before ∨ behind s := .inr next
      rcases ih behind_bracket tail with word | ⟨l', r', rfl, stays, place⟩
      · exact .inl word
      · refine .inr ⟨piece ++ l', r', by simp, ?_, ?_⟩
        · rw [List.getLast?_append, Option.or_assoc]
          exact stays
        · rw [List.getLast?_append, List.getLast?_append, Option.or_assoc, Option.or_assoc]
          exact place

/-- A scan that keeps a character or else hides it together with the `n` characters that follow. -/
theorem Hidden.of_scan (scan : Option Char → Nat → List Char → List Char)
    (done : ∀ before skip, scan before skip [] = [])
    (skips : ∀ before skip c r, scan before (skip + 1) (c :: r) = scan (some c) skip r)
    (step : ∀ before c r,
      kept before (c :: r) ∧ scan before 0 (c :: r) = c :: scan (some c) 0 r ∨
        ∃ n, behind (r.drop n) ∧ scan before 0 (c :: r) = placeholder ++ scan (some c) n r)
    (before : Option Char) (skip : Nat) (s : List Char) :
    Hidden kept behind ((s.take skip).getLast?.or before) (s.drop skip) (scan before skip s) := by
  induction s generalizing before skip with
  | nil =>
    rw [done, List.drop_nil]
    exact .nil
  | cons c r ih =>
    cases skip with
    | succ skip =>
      rw [skips, List.take_succ_cons, getLast?_cons_or]
      exact ih (some c) skip
    | zero =>
      rcases step before c r with ⟨stays, kept⟩ | ⟨n, next, hides⟩
      · rw [kept]
        exact .keep stays (ih (some c) 0)
      · have rest := ih (some c) n
        rw [← getLast?_cons_or] at rest
        have hidden := Hidden.hide (c :: r.take n) next rest
        rw [List.cons_append, List.take_append_drop] at hidden
        rw [hides]
        exact hidden

/-- Where a secret stays it does not begin. -/
theorem hidden_substitute (secret s : List Char) :
    Hidden (fun _ s => ¬ secret <+: s) (fun _ => True) none s
      (Text.substitute secret placeholder s) := by
  refine Hidden.of_scan (fun _ => Text.substituteFrom secret placeholder) (fun _ _ => ?_)
    (fun _ _ _ _ => rfl) (fun _ c r => ?_) none 0 s
  · simp [Text.substituteFrom]
  · simp only [Text.substituteFrom, List.isPrefixOf_iff_prefix]
    split
    · exact .inr ⟨_, True.intro, rfl⟩
    · exact .inl ⟨‹_›, rfl⟩

/-- Where a character stays no credential begins, and behind a credential stands no ASCII letter or
digit. -/
theorem hidden_substitute_pattern {p : Redaction.Pattern} (hp : p.WellFormed) (s : List Char) :
    Hidden (fun before s => p.matchAt? before s = none)
      (fun s => ∀ c, s.head? = some c → Text.isAlphanumericAscii c = false) none s
      (p.substitute placeholder s) := by
  refine Hidden.of_scan (p.substituteFrom placeholder) (fun _ _ => ?_)
    (fun _ _ _ _ => rfl) (fun before c r => ?_) none 0 s
  · simp [Redaction.Pattern.substituteFrom]
  · simp only [Redaction.Pattern.substituteFrom]
    split
    · rename_i n found
      refine .inr ⟨n - 1, hp.head_drop (c := c) ?_, rfl⟩
      unfold Redaction.Pattern.matchAt? at found
      split at found
      · exact found
      · cases found
    · exact .inl ⟨‹_›, rfl⟩

/-- A text that shares nothing with the placeholder: it neither holds a bracket nor is a part of the
word between the brackets. -/
structure Foreign (w : List Char) : Prop where
  opening : '[' ∉ w
  closing : ']' ∉ w
  word : ¬ w <:+: "REDACTED".toList

theorem Foreign.not_infix (foreign : Foreign w) (h : Hidden kept behind before s t)
    (absent : ¬ w <:+: s) : ¬ w <:+: t := by
  rintro ⟨l, r, ht⟩
  rcases h.origin foreign.opening foreign.closing (.inl rfl) ht.symm with word | ⟨l', r', rfl, -⟩
  · exact foreign.word word
  · exact absent ⟨l', r', rfl⟩

theorem Foreign.not_infix_substitute (foreign : Foreign w) (s : List Char) :
    ¬ w <:+: Text.substitute w placeholder s := by
  rintro ⟨l, r, ht⟩
  have hidden := hidden_substitute w s
  rcases hidden.origin foreign.opening foreign.closing (.inl rfl) ht.symm with
    word | ⟨l', r', -, stays, -⟩
  · exact foreign.word word
  · exact stays (List.prefix_append w r')

theorem Foreign.not_infix_hideSecrets (foreign : Foreign w) {secrets : List (List Char)}
    (hw : w ∈ secrets) (s : List Char) : ¬ w <:+: hideSecrets secrets s := by
  apply foldl_of_step (P := fun t => ¬ w <:+: t)
  · exact fun t secret _ absent => foreign.not_infix (hidden_substitute secret t) absent
  · exact .inl ⟨w, hw, foreign.not_infix_substitute⟩

theorem Foreign.not_infix_hideCredentials (foreign : Foreign w) (absent : ¬ w <:+: s) :
    ¬ w <:+: hideCredentials s := by
  apply foldl_of_step (P := fun t => ¬ w <:+: t)
  · intro t p hp absent
    have wellFormed := Redaction.Pattern.wellFormed_of_mem_all hp
    exact foreign.not_infix (hidden_substitute_pattern wellFormed t) absent
  · exact .inr absent

theorem mem_dropRepeats {values : List String} : x ∈ dropRepeats values ↔ x ∈ values := by
  fun_induction dropRepeats values with
  | case1 t r ih => simp [ih]
  | case2 s t r differ ih => simp [ih]
  | case3 => rfl

/-- Neither the order nor the repetitions of the values decide what is kept. -/
theorem mem_secrets_ofValues {values : List String} :
    x ∈ (ofValues values).secrets ↔ x ∈ values ∧ isKept x = true := by
  rw [ofValues, mem_dropRepeats, List.mem_mergeSort, List.mem_filter]

theorem Foreign.not_infix_redactChars {r : Redactor} {secret : String}
    (foreign : Foreign secret.toList) (h : secret ∈ r.secrets) (s : List Char) :
    ¬ secret.toList <:+: r.redactChars s := by
  apply foreign.not_infix_hideCredentials
  exact foreign.not_infix_hideSecrets (List.mem_map_of_mem h) s

/-- No secret that is kept stands in a redacted text, unless it has a part in the placeholder. -/
theorem not_infix_redact (values : List String) (text : String)
    (foreign : ∀ s ∈ values, isKept s = true → Foreign s.toList) :
    ∀ s ∈ values, isKept s = true → ¬ s.toList <:+: ((ofValues values).redact text).toList := by
  intro s hs kept
  rw [toList_redact]
  have member : s ∈ (ofValues values).secrets := mem_secrets_ofValues.2 ⟨hs, kept⟩
  exact (foreign s hs kept).not_infix_redactChars member text.toList

/-- Two secrets that overlap in the text: the longer one is hidden, and what is left of the other is
not the other any more. -/
theorem not_infix_redact_overlapping :
    (∀ s ∈ ["swordfish", "fish-and-chips"], isKept s = true → Foreign s.toList) ∧
      isKept "swordfish" = true ∧
        ¬ "swordfish".toList <:+:
          ((ofValues ["swordfish", "fish-and-chips"]).redact "swordfish-and-chips").toList := by
  have foreign : ∀ s ∈ ["swordfish", "fish-and-chips"], isKept s = true → Foreign s.toList := by
    intro s hs _
    simp only [List.mem_cons, List.not_mem_nil, or_false] at hs
    rcases hs with rfl | rfl
    · exact ⟨by decide, by decide, fun h => absurd h.length_le (by decide)⟩
    · exact ⟨by decide, by decide, fun h => absurd h.length_le (by decide)⟩
  have kept : isKept "swordfish" = true := by decide
  have redacted := not_infix_redact ["swordfish", "fish-and-chips"] "swordfish-and-chips" foreign
  exact ⟨foreign, kept, redacted "swordfish" List.mem_cons_self kept⟩

end Redactor

end Foreman

import Foreman.Proofs.Redaction.Hiding

namespace Foreman

namespace Redaction.Pattern

variable {p q : Pattern} {before : Option Char} {w s : List Char}

open Redactor (placeholder)

theorem WellFormed.matchAt?_isSome (hp : p.WellFormed) (hb : atBoundary before = true)
    (hw : p.Describes w) (s : List Char) : (p.matchAt? before (w ++ s)).isSome := by
  rw [matchAt?, if_pos hb]
  exact hw.length?_isSome hp.separated s

/-- A credential in the new text was one in the old text, and was passed over there. -/
theorem OccursIn.origin (hp : p.WellFormed) (hq : q.WellFormed)
    (h : q.OccursIn (p.substitute placeholder s)) :
    ∃ l w r, s = l ++ w ++ r ∧ atBoundary (l.getLast?.or none) = true ∧ q.Describes w ∧
      p.matchAt? (l.getLast?.or none) (w ++ r) = none := by
  obtain ⟨l, w, r, ht, hb, hw⟩ := h
  obtain ⟨opening, closing⟩ := hq.not_mem_bracket hw
  have hidden := Redactor.hidden_substitute_pattern hp s
  rcases hidden.origin opening closing (.inl rfl) ht with word | ⟨l', r', rfl, stays, place⟩
  · have short : w.length ≤ 8 := word.length_le
    exact absurd (hq.least_lt hw) (Nat.not_lt.2 short)
  · refine ⟨l', w, r', rfl, ?_, hw, stays⟩
    -- None begins right behind a piece, which has taken every letter and digit there.
    rcases place with same | next
    · rw [← same]
      exact hb
    · obtain ⟨c, w, rfl, letter⟩ := hq.head_alphanumeric hw
      rw [next c rfl] at letter
      cases letter

theorem not_occursIn_substitute (hp : p.WellFormed) (s : List Char) :
    ¬ p.OccursIn (p.substitute placeholder s) := by
  intro h
  obtain ⟨l, w, r, rfl, hb, hw, passed⟩ := h.origin hp hp
  have found := hp.matchAt?_isSome hb hw r
  rw [passed] at found
  cases found

theorem not_occursIn_substitute_of_not (hp : p.WellFormed) (hq : q.WellFormed)
    (absent : ¬ q.OccursIn s) : ¬ q.OccursIn (p.substitute placeholder s) := by
  intro h
  obtain ⟨l, w, r, rfl, hb, hw, -⟩ := h.origin hp hq
  exact absent ⟨l, w, r, rfl, hb, hw⟩

theorem occursBehind_of_matchAt? (h : p.matchAt? before s = some n) : p.OccursBehind before s := by
  unfold matchAt? at h
  split at h
  · rename_i hb
    obtain ⟨-, described⟩ := describes_take h
    exact ⟨[], s.take n, s.drop n, (List.take_append_drop n s).symm, hb, described⟩
  · cases h

theorem OccursBehind.cons (h : p.OccursBehind (some c) s) : p.OccursBehind before (c :: s) := by
  obtain ⟨l, w, r, rfl, hb, hw⟩ := h
  refine ⟨c :: l, w, r, rfl, ?_, hw⟩
  rw [Redactor.getLast?_cons_or]
  exact hb

theorem substituteFrom_eq_self (replacement : List Char) (absent : ¬ p.OccursBehind before s) :
    p.substituteFrom replacement before 0 s = s := by
  induction s generalizing before with
  | nil => simp [substituteFrom]
  | cons c r ih =>
    simp only [substituteFrom]
    split
    · rename_i found
      exact (absent (occursBehind_of_matchAt? found)).elim
    · rw [ih fun h => absent h.cons]

end Redaction.Pattern

theorem Text.substituteFrom_eq_self {needle s : List Char} (replacement : List Char)
    (absent : ¬ needle <:+: s) : substituteFrom needle replacement 0 s = s := by
  induction s with
  | nil => rfl
  | cons c r ih =>
    rw [List.infix_cons_iff, not_or] at absent
    simp only [substituteFrom, List.isPrefixOf_iff_prefix]
    rw [if_neg absent.1, ih absent.2]

theorem foldl_eq_self {f : β → α → β} {xs : List α} {b : β} (h : ∀ x ∈ xs, f b x = b) :
    xs.foldl f b = b := by
  apply foldl_of_step (P := fun t => t = b)
  · rintro t x hx rfl
    exact h x hx
  · exact .inr rfl

namespace Redactor

open Redaction

theorem not_occursIn_hideCredentials (hq : q ∈ Pattern.all) (s : List Char) :
    ¬ q.OccursIn (hideCredentials s) := by
  have wellFormed := Pattern.wellFormed_of_mem_all hq
  apply foldl_of_step (P := fun t => ¬ q.OccursIn t)
  · intro t p hp absent
    exact Pattern.not_occursIn_substitute_of_not (Pattern.wellFormed_of_mem_all hp) wellFormed
      absent
  · exact .inl ⟨q, hq, Pattern.not_occursIn_substitute wellFormed⟩

theorem hideSecrets_eq_self {secrets : List (List Char)} {s : List Char}
    (absent : ∀ w ∈ secrets, ¬ w <:+: s) : hideSecrets secrets s = s := by
  apply foldl_eq_self
  intro w hw
  exact Text.substituteFrom_eq_self placeholder (absent w hw)

theorem hideCredentials_eq_self {s : List Char} (absent : ∀ p ∈ Pattern.all, ¬ p.OccursIn s) :
    hideCredentials s = s := by
  apply foldl_eq_self
  intro p hp
  exact Pattern.substituteFrom_eq_self placeholder (absent p hp)

theorem redactChars_eq_self {r : Redactor} {s : List Char}
    (secrets : ∀ secret ∈ r.secrets, ¬ secret.toList <:+: s)
    (credentials : ∀ p ∈ Pattern.all, ¬ p.OccursIn s) : r.redactChars s = s := by
  have absent : ∀ w ∈ r.secrets.map String.toList, ¬ w <:+: s := by
    intro w hw
    obtain ⟨secret, hs, rfl⟩ := List.mem_map.1 hw
    exact secrets secret hs
  rw [redactChars, hideSecrets_eq_self absent, hideCredentials_eq_self credentials]

/-- No credential stands in a redacted text; and redacting it again changes nothing, as long as no
secret that is kept has a part in the placeholder. -/
theorem redact_stable (values : List String) (text : String) :
    (∀ p ∈ Pattern.all, ¬ p.OccursIn ((ofValues values).redact text).toList) ∧
      ((∀ s ∈ values, isKept s = true → Foreign s.toList) →
        (ofValues values).redact ((ofValues values).redact text) =
          (ofValues values).redact text) := by
  have credentials : ∀ p ∈ Pattern.all, ¬ p.OccursIn ((ofValues values).redact text).toList := by
    intro p hp
    rw [toList_redact]
    exact not_occursIn_hideCredentials hp _
  refine ⟨credentials, fun foreign => ?_⟩
  have secrets : ∀ secret ∈ (ofValues values).secrets,
      ¬ secret.toList <:+: ((ofValues values).redact text).toList := by
    intro secret hs
    obtain ⟨member, kept⟩ := mem_secrets_ofValues.1 hs
    rw [toList_redact]
    exact (foreign secret member kept).not_infix_redactChars hs text.toList
  apply String.toList_inj.1
  rw [toList_redact]
  exact redactChars_eq_self secrets credentials

/-- Once the secret is hidden, a key begins where no word began before; it is hidden in its turn. -/
theorem redact_stable_boundary :
    (∀ s ∈ ["hunter2-hunter2"], isKept s = true → Foreign s.toList) ∧
      (ofValues ["hunter2-hunter2"]).redact
          ((ofValues ["hunter2-hunter2"]).redact "hunter2-hunter2sk-0123456789abcdef") =
        (ofValues ["hunter2-hunter2"]).redact "hunter2-hunter2sk-0123456789abcdef" := by
  have foreign : ∀ s ∈ ["hunter2-hunter2"], isKept s = true → Foreign s.toList := by
    intro s hs _
    rw [List.mem_singleton.1 hs]
    exact ⟨by decide, by decide, fun h => absurd h.length_le (by decide)⟩
  have stable := redact_stable ["hunter2-hunter2"] "hunter2-hunter2sk-0123456789abcdef"
  exact ⟨foreign, stable.2 foreign⟩

end Redactor

end Foreman

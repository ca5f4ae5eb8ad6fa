import Foreman.Proofs.Text.Letter
import Foreman.Proofs.Text.Search
import Foreman.Verdict

namespace Foreman

open Text (SameButCase)

variable {s t : List Char}

theorem looksLikeSystemError_iff :
    looksLikeSystemError s = true ↔
      ∃ phrase ∈ systemErrorPhrases, phrase.toList <:+: Text.lower s := by
  simp only [looksLikeSystemError, List.any_eq_true, Text.occursIn_iff]

theorem lineFeed_not_mem_phrase : ∀ phrase ∈ systemErrorPhrases, '\n' ∉ phrase.toList := by
  decide

theorem lower_phrase :
    ∀ phrase ∈ systemErrorPhrases, Text.lower phrase.toList = phrase.toList := by
  decide

theorem looksLikeSystemError_of_infix (h : s <:+: t) (hs : looksLikeSystemError s = true) :
    looksLikeSystemError t = true := by
  obtain ⟨phrase, known, found⟩ := looksLikeSystemError_iff.1 hs
  apply looksLikeSystemError_iff.2
  exact ⟨phrase, known, found.trans (h.map Text.lowerChar)⟩

/-- A phrase is on one line, so none begins in the one text and ends in the other. -/
theorem looksLikeSystemError_append_lineFeed :
    looksLikeSystemError (s ++ '\n' :: t) = true ↔
      looksLikeSystemError s = true ∨ looksLikeSystemError t = true := by
  constructor
  · intro h
    obtain ⟨phrase, known, found⟩ := looksLikeSystemError_iff.1 h
    have joined : Text.lower (s ++ '\n' :: t) = Text.lower s ++ '\n' :: Text.lower t :=
      Text.lower_append s ('\n' :: t)
    rw [joined, infix_append_cons_iff (lineFeed_not_mem_phrase phrase known)] at found
    rcases found with left | right
    · exact .inl (looksLikeSystemError_iff.2 ⟨phrase, known, left⟩)
    · exact .inr (looksLikeSystemError_iff.2 ⟨phrase, known, right⟩)
  · intro h
    rcases h with left | right
    · exact looksLikeSystemError_of_infix (List.prefix_append s ('\n' :: t)).isInfix left
    · exact looksLikeSystemError_of_infix ⟨s ++ ['\n'], [], by simp⟩ right

theorem looksLikeSystemError_congr (h : SameButCase s t) :
    looksLikeSystemError s = looksLikeSystemError t := by
  rw [looksLikeSystemError, Text.lower_eq_iff.2 h]
  rfl

theorem looksLikeSystemError_iff_part :
    looksLikeSystemError s = true ↔ ∃ phrase ∈ systemErrorPhrases,
      ∃ part, part <:+: s ∧ SameButCase part phrase.toList := by
  rw [looksLikeSystemError_iff]
  apply exists_congr
  intro phrase
  apply and_congr_right
  intro known
  rw [Text.infix_lower_iff]
  simp only [← Text.lower_eq_iff, lower_phrase phrase known]

theorem Verdict.ofOutcome_of_failed {o : ChildOutcome} (inTime : o.timedOut = false)
    (failed : o.success = false) (timeout : Span) :
    ofOutcome o timeout = .failed (failureText o)
      (some (looksLikeSystemError (o.stderr.toList ++ '\n' :: o.stdout.toList))) := by
  rw [ofOutcome, inTime, failed]
  rfl

/-- The error of a failed run is a system error exactly if one of its streams tells of one, and a
text tells of one exactly if a phrase stands in it but for the case of letters. So neither the case
nor what stands around decides. -/
theorem Verdict.systemError_settled :
    (∀ (o : ChildOutcome) (timeout : Span), o.timedOut = false → o.success = false →
      ∃ systemError, ofOutcome o timeout = .failed (failureText o) (some systemError) ∧
        (systemError = true ↔ looksLikeSystemError o.stderr.toList = true ∨
          looksLikeSystemError o.stdout.toList = true)) ∧
    (∀ s t, SameButCase s t → looksLikeSystemError s = looksLikeSystemError t) ∧
    (∀ before s after, looksLikeSystemError s = true →
      looksLikeSystemError (before ++ s ++ after) = true) ∧
    ∀ s, looksLikeSystemError s = true ↔ ∃ phrase ∈ systemErrorPhrases,
      ∃ part, part <:+: s ∧ SameButCase part phrase.toList := by
  constructor
  · intro o timeout inTime failed
    have verdict := ofOutcome_of_failed inTime failed timeout
    exact ⟨_, verdict, looksLikeSystemError_append_lineFeed⟩
  constructor
  · intro s t same
    exact looksLikeSystemError_congr same
  constructor
  · intro before s after tells
    exact looksLikeSystemError_of_infix ⟨before, after, rfl⟩ tells
  · intro s
    exact looksLikeSystemError_iff_part

/-- The streams of a run that had begun to say "rate limit" on the one, and went on on the other. -/
def tornOutcome : ChildOutcome where
  success := false
  exitCode := some 1
  stdout := "LIMIT reached"
  stderr := "API error: RATE"
  timedOut := false
  stdoutDropped := 0
  stderrDropped := 0

theorem Verdict.systemError_settled_tornOutcome :
    tornOutcome.timedOut = false ∧ tornOutcome.success = false ∧
      ofOutcome tornOutcome ⟨0⟩ = .failed (failureText tornOutcome) (some false) ∧
      SameButCase "Rate Limit".toList "rate limit".toList ∧
      looksLikeSystemError ("É: ".toList ++ "Rate Limit".toList ++ "!".toList) = true := by
  obtain ⟨failed, cased, around, -⟩ := Verdict.systemError_settled
  have same : SameButCase "Rate Limit".toList "rate limit".toList :=
    Text.lower_eq_iff.1 (by decide)
  obtain ⟨systemError, verdict, told⟩ := failed tornOutcome ⟨0⟩ rfl rfl
  have untold : systemError = false := by
    apply Bool.eq_false_iff.2
    intro h
    rcases told.1 h with left | right
    · exact absurd left (by decide)
    · exact absurd right (by decide)
  refine ⟨rfl, rfl, untold ▸ verdict, same, around _ _ _ ?_⟩
  rw [cased _ _ same]
  decide

end Foreman

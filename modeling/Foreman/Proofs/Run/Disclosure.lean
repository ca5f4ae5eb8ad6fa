import Foreman.Proofs.Notice.Delivery
import Foreman.Proofs.Redaction.Hiding
import Foreman.Proofs.Run.FinalStatus

namespace Foreman

/-- Whether a text holds no secret that a redactor knows. -/
def Redactor.Clears (r : Redactor) (text : String) : Prop :=
  ∀ secret ∈ r.secrets, ¬ secret.toList <:+: text.toList

/-- The error or the reason that an outcome gives. -/
def TaskOutcome.explanation? : TaskOutcome → Option String
  | .done .. => none
  | .failed text | .flagged text | .crashed text => some text

def TaskOutcome.Discreet (r : Redactor) (o : TaskOutcome) : Prop :=
  ∀ text, o.explanation? = some text → r.Clears text

/-- The word before the reason of a refusal is not looked at. -/
def TaskUpdate.Discreet (r : Redactor) (u : TaskUpdate) : Prop :=
  ∀ notes, u.notes = some notes →
    r.Clears notes ∨ ∃ reason, notes = s!"Flagged: {reason}" ∧ r.Clears reason

theorem Redactor.clears_redact {r : Redactor}
    (foreign : ∀ secret ∈ r.secrets, Foreign secret.toList) (text : String) :
    r.Clears (r.redact text) := by
  intro secret hs
  rw [toList_redact]
  exact (foreign secret hs).not_infix_redactChars hs text.toList

namespace Run

theorem discreet_stuckUpdate {r : Redactor} (h : r.Clears text) :
    (stuckUpdate text).Discreet r := by
  intro notes hn
  cases hn
  exact .inl h

def Stage.Discreet (r : Redactor) : Stage → Prop
  | .recording outcome update _ => outcome.Discreet r ∧ update.Discreet r
  | .burying error => r.Clears error
  | .ended outcome => outcome.Discreet r
  | _ => True

namespace Stage

variable {p : RunPolicy}

theorem discreet_afterSuccess
    (foreign : ∀ secret ∈ p.redactor.secrets, Redactor.Foreign secret.toList) :
    (afterSuccess p t notes metrics commit verified summary).Discreet p.redactor := by
  refine ⟨nofun, ?_⟩
  intro text hn
  obtain ⟨raw, -, rfl⟩ := Option.map_eq_some_iff.1 hn
  exact .inl (Redactor.clears_redact foreign raw)

theorem discreet_afterVerdict
    (foreign : ∀ secret ∈ p.redactor.secrets, Redactor.Foreign secret.toList) (v : Verdict) :
    (afterVerdict p t v).Discreet p.redactor := by
  cases v with
  | failed error system =>
    have clear := Redactor.clears_redact foreign error
    refine ⟨?_, discreet_stuckUpdate clear⟩
    rintro text ⟨⟩
    exact clear
  | succeeded notes metrics flagged commit =>
    cases flagged with
    | some reason =>
      have clear := Redactor.clears_redact foreign reason
      refine ⟨?_, ?_⟩
      · rintro text ⟨⟩
        exact clear
      · rintro text ⟨⟩
        exact .inr ⟨p.redactor.redact reason, rfl, clear⟩
    | none =>
      cases commit with
      | some hash => exact True.intro
      | none => exact discreet_afterSuccess foreign

theorem discreet_next
    (foreign : ∀ secret ∈ p.redactor.secrets, Redactor.Foreign secret.toList)
    (h : stage.Discreet p.redactor) : (next p t stage reply).1.Discreet p.redactor := by
  have clear := Redactor.clears_redact foreign
  fun_cases next p t stage reply with
  | case1 => exact True.intro
  | case2 f | case3 x => exact clear _
  | case4 o => exact discreet_afterVerdict foreign (verdict p (.ok o))
  | case5 f => exact discreet_afterVerdict foreign (verdict p (.error f))
  | case6 x => exact clear _
  | case7 => exact discreet_afterSuccess foreign
  | case8 | case9 => exact clear _
  | case10 => exact h.1
  | case11 => exact True.intro
  | case12 =>
    rintro text ⟨⟩
    exact h
  | case13 => exact h

/-- What a stage writes is as discreet as the stage. -/
theorem Discreet.update {r : Redactor} (h : stage.Discreet r)
    (hq : request? p t stage = some (.write u)) : u.Discreet r := by
  cases stage with
  | marking =>
    cases hq
    nofun
  | recording outcome update notice =>
    cases hq
    exact h.2
  | burying error =>
    cases hq
    exact discreet_stuckUpdate h
  | working | verifying | ended | unwound => cases hq

end Stage

namespace Progress

structure Discreet (r : Redactor) (g : Progress σ) : Prop where
  stage : g.stage.Discreet r
  writes : ∀ u a, (u, a) ∈ g.writes → u.Discreet r

theorem Discreet.step {g : Progress σ}
    (foreign : ∀ secret ∈ p.redactor.secrets, Redactor.Foreign secret.toList)
    (h : g.Discreet p.redactor) : (g.step p t c).Discreet p.redactor := by
  cases hq : g.stage.request? p t with
  | none =>
    rw [step_of_isOver ((Stage.request?_eq_none_iff _).1 hq)]
    exact h
  | some q =>
    rw [step_eq hq]
    refine ⟨Stage.discreet_next foreign h.stage, ?_⟩
    intro u a hw
    simp only [Progress.writes, List.filterMap_append, List.mem_append] at hw
    rcases hw with old | new
    · exact h.writes u a old
    · obtain ⟨exchange, he, same⟩ := List.mem_filterMap.1 new
      rw [List.mem_singleton.1 he] at same
      cases q with
      | write u' =>
        cases same
        exact h.stage.update hq
      | work | verify => cases same

end Progress

/-- Whatever its collaborators say, a run keeps every secret of its redactor to itself: none stands
in the outcome, in what is noted with the task, or in a notice that the sink is handed. -/
theorem drive_keeps_secrets {c : Collaborators σ}
    (foreign : ∀ secret ∈ p.redactor.secrets, Redactor.Foreign secret.toList) (w : σ) :
    (∀ o, (drive p t c w).stage = .ended o → o.Discreet p.redactor) ∧
      (∀ u a, (u, a) ∈ (drive p t c w).writes → u.Discreet p.redactor) ∧
        ∀ q earlier later handed,
          NoticeQueue.History p.redactor q (earlier ++ (drive p t c w).notices ++ later) handed →
            ∀ text ∈ handed, p.redactor.Clears text := by
  have fresh : (⟨.marking, [], [], w⟩ : Progress σ).Discreet p.redactor :=
    ⟨True.intro, fun u a hw => (List.not_mem_nil hw).elim⟩
  have discreet : (drive p t c w).Discreet p.redactor :=
    Progress.steps_keeps (fun _ h => h.step foreign) 5 fresh
  refine ⟨?_, discreet.writes, ?_⟩
  · intro o ended
    have stage := discreet.stage
    rw [ended] at stage
    exact stage
  · intro q earlier later handed history text ht
    obtain ⟨notice, -, rfl⟩ := history.exists_of_mem ht
    exact Redactor.clears_redact foreign notice

end Run

namespace Rehearsal

open Run

/-- The agent quotes the secret in its notes, and so does the store, which breaks off. -/
def quotingScript : Script where
  turn _ :=
    ⟨false, .atOnce (.ok ⟨true, some 0, "DEV_NOTES_START hunter2-password DEV_NOTES_END", "", false,
      0, 0⟩)⟩
  verify _ := .ok true
  lookup _ := .answers 0
  writeFault?
    | .done => some (.panicked (.message "lost hunter2-password"))
    | _ => none
  requeueFault? := none
  preparation _ := .atOnce (.ok ())

def quotingTask : Task := { plainTask with title := "Rotate hunter2-password" }

def guardedPolicy : RunPolicy :=
  { plainPolicy with redactor := .ofValues ["hunter2-password"] }

def quotingRun : Progress World :=
  drive guardedPolicy quotingTask (quotingScript.cast.collaborators quotingTask.id)
    (.ofBook ⟨[quotingTask]⟩ quotingTask.created)

theorem foreign_guardedPolicy :
    ∀ secret ∈ guardedPolicy.redactor.secrets, Redactor.Foreign secret.toList := by
  intro secret hs
  obtain ⟨member, -⟩ := Redactor.mem_secrets_ofValues.1 hs
  rw [List.mem_singleton.1 member]
  exact ⟨by decide, by decide, fun h => absurd h.length_le (by decide)⟩

theorem keeps_secrets_quotingRun :
    (∀ secret ∈ guardedPolicy.redactor.secrets, Redactor.Foreign secret.toList) ∧
    quotingRun.stage = .ended (.crashed "pipeline panicked: lost [REDACTED]") ∧
    (∀ o, quotingRun.stage = .ended o → o.Discreet guardedPolicy.redactor) ∧
    (∀ u a, (u, a) ∈ quotingRun.writes → u.Discreet guardedPolicy.redactor) ∧
    ∀ q earlier later handed,
      NoticeQueue.History guardedPolicy.redactor q (earlier ++ quotingRun.notices ++ later)
        handed → ∀ text ∈ handed, guardedPolicy.redactor.Clears text :=
  ⟨foreign_guardedPolicy, by decide +kernel,
    drive_keeps_secrets foreign_guardedPolicy _⟩

end Rehearsal

end Foreman

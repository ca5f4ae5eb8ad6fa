import Foreman.Proofs.Run.Verification

/-!
# Runs without an outcome

Wherever a call breaks a run off, what is left is to record the task as stuck. That write is made
outside of the run that broke off, where nothing catches a panic. So a run has an outcome as long as
no second call breaks it off, and where one does, it is that write.
-/

namespace Foreman

/-- How many calls have broken off a run with this outcome. -/
def TaskOutcome.breaks : TaskOutcome → Nat
  | done .. | failed _ | flagged _ => 0
  | crashed _ => 1

theorem TaskOutcome.breaks_le (o : TaskOutcome) : o.breaks ≤ 1 := by
  cases o <;> simp [breaks]

namespace Run

/-- Whether an answer breaks a run off: a panic does, and so does a fault when the task is to be
marked. -/
def breaksOff : Request × Reply → Bool
  | (_, .written (.panicked _)) | (_, .worked (.panicked _)) | (_, .verified (.error _)) => true
  | (.write u, .written (.failed _)) => u.status = .inProgress
  | _ => false

namespace Stage

/-- How many calls have broken off a run that is at a stage. -/
def Withstood (n : Nat) : Stage → Prop
  | marking | working | verifying .. => n = 0
  | recording o u _ => n = 0 ∧ o.breaks = 0 ∧ u.status ≠ .inProgress
  | burying _ => n = 1
  | ended o => n = o.breaks
  | unwound _ => n = 2

theorem withstood_afterVerdict (p : RunPolicy) (t : Task) (v : Verdict) :
    (afterVerdict p t v).Withstood 0 := by
  unfold afterVerdict
  split
  · exact ⟨rfl, rfl, nofun⟩
  · exact ⟨rfl, rfl, nofun⟩
  · rfl
  · exact ⟨rfl, rfl, nofun⟩

theorem Withstood.next (h : stage.Withstood n) (hq : request? p t stage = some q)
    (ha : reply.Answers q) :
    (stage.next p t reply).1.Withstood (n + if breaksOff (q, reply) then 1 else 0) := by
  cases stage with
  | marking =>
    cases hq
    cases h
    cases reply with
    | written a => cases a <;> rfl
    | worked | verified => cases ha
  | working =>
    cases hq
    cases h
    cases reply with
    | worked a =>
      cases a with
      | ok o => exact withstood_afterVerdict p t (verdict p (.ok o))
      | failed f => exact withstood_afterVerdict p t (verdict p (.error f))
      | panicked x => rfl
    | written | verified => cases ha
  | verifying commit notes metrics =>
    cases hq
    cases h
    cases reply with
    | verified a =>
      cases a with
      | ok verified => exact ⟨rfl, rfl, nofun⟩
      | error x => rfl
    | written | worked => cases ha
  | recording o u notice =>
    cases hq
    obtain ⟨rfl, whole, other⟩ := h
    cases reply with
    | written a =>
      cases a with
      | ok => exact whole.symm
      | failed f => simpa [Stage.next, breaksOff, other, Withstood] using whole.symm
      | panicked x => rfl
    | worked | verified => cases ha
  | burying error =>
    cases hq
    cases h
    cases reply with
    | written a => cases a <;> rfl
    | worked | verified => cases ha
  | ended | unwound => cases hq

end Stage

namespace Progress

variable {g : Progress σ}

/-- How many calls have broken the run off. -/
def breaks (g : Progress σ) : Nat := g.exchanges.countP breaksOff

/-- The run is where the calls that broke it off have left it, and a run that unwinds does so from
the write that was to record its task as stuck. -/
structure Withstands (g : Progress σ) : Prop where
  count : g.stage.Withstood g.breaks
  last : g.stage = .unwound x → ∃ u, u.status = .stuck ∧
    g.exchanges.getLast? = some (.write u, .written (.panicked x))

theorem Withstands.step (h : g.Withstands) : (g.step p t c).Withstands := by
  cases hq : g.stage.request? p t with
  | none =>
    rw [step_of_isOver ((Stage.request?_eq_none_iff _).1 hq)]
    exact h
  | some q =>
    rw [step_eq hq]
    constructor
    · simp only [breaks, List.countP_append, List.countP_singleton]
      exact h.count.next hq (c.reply_answers q g.world)
    · intro x hx
      have going : g.stage ≠ .unwound x := by
        intro same
        rw [same] at hq
        cases hq
      obtain ⟨error, burying, broke⟩ := Stage.burying_of_next_unwound hx going
      rw [burying] at hq
      cases hq
      exact ⟨stuckUpdate error, rfl, by rw [List.getLast?_concat, broke]⟩

end Progress

theorem drive_withstands (p : RunPolicy) (t : Task) (c : Collaborators σ) (w : σ) :
    (drive p t c w).Withstands := by
  apply Progress.steps_keeps (P := Progress.Withstands)
  · exact fun _ h => h.step
  · exact ⟨rfl, fun h => by cases h⟩

/-- Whatever its collaborators do, a run has an outcome unless two of its calls break it off, and it
has crashed if one did. Of two the second is the last write, which was to record the task as stuck,
and the run ends with its panic. -/
theorem drive_outcome_iff (p : RunPolicy) (t : Task) (c : Collaborators σ) (w : σ) :
    ((∃ o, (drive p t c w).stage = .ended o) ↔ (drive p t c w).breaks ≤ 1) ∧
      (∀ o, (drive p t c w).stage = .ended o → (drive p t c w).breaks = o.breaks) ∧
      ((drive p t c w).breaks ≤ 1 ∨ (drive p t c w).breaks = 2 ∧
        ∃ x u, (drive p t c w).stage = .unwound x ∧ u.status = .stuck ∧
          (drive p t c w).exchanges.getLast? = some (.write u, .written (.panicked x))) := by
  have withstands := drive_withstands p t c w
  have count := withstands.count
  rcases Stage.ended_or_unwound (drive_isOver p t c w) with ⟨o, hs⟩ | ⟨x, hs⟩
  · rw [hs] at count
    have few : (drive p t c w).breaks ≤ 1 := Nat.le_trans (Nat.le_of_eq count) o.breaks_le
    refine ⟨⟨fun _ => few, fun _ => ⟨o, hs⟩⟩, ?_, .inl few⟩
    intro o' hs'
    rw [hs] at hs'
    cases hs'
    exact count
  · rw [hs] at count
    obtain ⟨u, stuck, last⟩ := withstands.last hs
    refine ⟨⟨?_, ?_⟩, ?_, .inr ⟨count, x, u, hs, stuck, last⟩⟩
    · rintro ⟨o, hs'⟩
      rw [hs] at hs'
      cases hs'
    · intro few
      change (drive p t c w).breaks = 2 at count
      omega
    · intro o hs'
      rw [hs] at hs'
      cases hs'

end Run

namespace Rehearsal

open Run

/-- The agent panics, and so does the store where its task is to be recorded as stuck. -/
def doomedScript : Script where
  turn _ := ⟨false, .atOnce (.panicked (.message "agent exploded"))⟩
  verify _ := .ok true
  lookup _ := .answers 0
  writeFault?
    | .stuck => some (.panicked (.message "store panicked"))
    | _ => none
  requeueFault? := none
  preparation _ := .atOnce (.ok ())

def doomedRun : Progress World :=
  drive plainPolicy plainTask (doomedScript.cast.collaborators plainTask.id)
    (.ofBook ⟨[plainTask]⟩ plainTask.created)

/-- The panic of the store is not caught: the run has no outcome. -/
theorem not_ended_doomedRun :
    doomedRun.stage = .unwound (.message "store panicked") ∧
      doomedRun.writes.map (·.1.status) = [.inProgress, .stuck] ∧
      ¬ ∃ o, doomedRun.stage = .ended o := by
  have unwound : doomedRun.stage = .unwound (.message "store panicked") := by decide +kernel
  refine ⟨unwound, by decide +kernel, ?_⟩
  rintro ⟨o, ended⟩
  rw [unwound] at ended
  cases ended

end Rehearsal

end Foreman

import Foreman.Run.Drive

namespace Foreman.Run

/-- Whether a reply is one to a request. -/
def Reply.Answers : Request → Reply → Prop
  | .write _, .written _ | .work _, .worked _ | .verify _, .verified _ => True
  | _, _ => False

theorem Collaborators.reply_answers (c : Collaborators σ) (q : Request) (w : σ) :
    (c.reply q w).1.Answers q := by
  cases q <;> trivial

namespace Stage

/-- How many answers a run gets at most from here on. -/
def ahead : Stage → Nat
  | marking => 5
  | working => 4
  | verifying _ _ _ => 3
  | recording _ _ _ => 2
  | burying _ => 1
  | ended _ | unwound _ => 0

theorem isOver_iff_ahead (stage : Stage) : stage.isOver = true ↔ stage.ahead = 0 := by
  cases stage <;> simp [isOver, ahead]

theorem request?_eq_none_iff (stage : Stage) :
    stage.request? p t = none ↔ stage.isOver = true := by
  cases stage <;> simp [request?, isOver]

theorem ahead_afterVerdict (p : RunPolicy) (t : Task) (v : Verdict) :
    (afterVerdict p t v).ahead < 4 := by
  unfold afterVerdict
  split <;> simp [ahead, afterSuccess]

theorem ahead_next (h : request? p t stage = some q) (ha : reply.Answers q) :
    (stage.next p t reply).1.ahead < stage.ahead := by
  cases stage with
  | marking =>
    cases h
    cases reply with
    | written a => rcases a with ⟨⟩ | _ | _ <;> simp [next, crash, afterPanic, ahead]
    | worked | verified => cases ha
  | working =>
    cases h
    cases reply with
    | worked a =>
      cases a with
      | ok o => exact ahead_afterVerdict p t (verdict p (.ok o))
      | failed f => exact ahead_afterVerdict p t (verdict p (.error f))
      | panicked x => simp [next, crash, afterPanic, ahead]
    | written | verified => cases ha
  | verifying hash notes metrics =>
    cases h
    cases reply with
    | verified a => cases a <;> simp [next, crash, afterPanic, afterSuccess, ahead]
    | written | worked => cases ha
  | recording outcome update notice =>
    cases h
    cases reply with
    | written a => cases a <;> simp [next, crash, afterPanic, ahead]
    | worked | verified => cases ha
  | burying error =>
    cases h
    cases reply with
    | written a => cases a <;> simp [next, ahead]
    | worked | verified => cases ha
  | ended | unwound => cases h

/-- A stage that records an outcome writes its final status. -/
def Faithful : Stage → Prop
  | recording outcome update _ => update.status = outcome.finalStatus
  | _ => True

theorem faithful_afterVerdict (p : RunPolicy) (t : Task) (v : Verdict) :
    (afterVerdict p t v).Faithful := by
  unfold afterVerdict
  split <;> trivial

theorem faithful_next (h : stage.Faithful) : (next p t stage reply).1.Faithful := by
  fun_cases next p t stage reply with
  | case4 o => exact faithful_afterVerdict p t (verdict p (.ok o))
  | case5 f => exact faithful_afterVerdict p t (verdict p (.error f))
  | case13 => exact h
  | _ => trivial

/-- No run puts its task back into the queue. -/
theorem Faithful.status_ne_queued (h : stage.Faithful)
    (hq : request? p t stage = some (.write u)) : u.status ≠ .queued := by
  cases stage with
  | marking | burying =>
    cases hq
    nofun
  | recording o u' n =>
    cases hq
    rw [h]
    cases o <;> nofun
  | working | verifying | ended | unwound => cases hq

/-- The agent is set to work only when the task has been marked. -/
theorem marked_of_next_working (h : (next p t stage reply).1 = .working)
    (ne : stage ≠ .working) : stage = .marking ∧ reply = .written (.ok ()) := by
  revert h
  fun_cases next p t stage reply with
  | case1 => exact fun _ => ⟨rfl, rfl⟩
  | case4 | case5 | case6 => exact fun _ => (ne rfl).elim
  | case13 => exact fun same => (ne same).elim
  | _ => nofun

theorem marking_of_next (h : (next p t stage reply).1 = .marking) : stage = .marking := by
  have beyond (v : Verdict) : afterVerdict p t v ≠ .marking := by
    intro same
    have lt := ahead_afterVerdict p t v
    rw [same] at lt
    exact absurd lt (by decide)
  revert h
  fun_cases next p t stage reply with
  | case1 | case2 | case3 => exact fun _ => rfl
  | case4 o => exact fun same => (beyond (verdict p (.ok o)) same).elim
  | case5 f => exact fun same => (beyond (verdict p (.error f)) same).elim
  | case13 => exact id
  | _ => nofun

end Stage

namespace Progress

/-- What an answer makes of a run. -/
theorem step_eq {g : Progress σ} (h : g.stage.request? p t = some q) :
    g.step p t c =
      ⟨(g.stage.next p t (c.reply q g.world).1).1,
        g.exchanges ++ [(q, (c.reply q g.world).1)],
        g.notices ++ (g.stage.next p t (c.reply q g.world).1).2, (c.reply q g.world).2⟩ := by
  simp only [step, h]

theorem step_of_isOver {g : Progress σ} (h : g.stage.isOver = true) : g.step p t c = g := by
  simp only [step, (Stage.request?_eq_none_iff g.stage).2 h]

theorem ahead_step (g : Progress σ) : (g.step p t c).stage.ahead ≤ g.stage.ahead - 1 := by
  cases h : g.stage.request? p t with
  | none =>
    have ended := (Stage.request?_eq_none_iff g.stage).1 h
    have zero := (Stage.isOver_iff_ahead _).1 ended
    rw [step_of_isOver ended]
    omega
  | some q =>
    rw [step_eq h]
    have := Stage.ahead_next h (c.reply_answers q g.world)
    exact Nat.le_sub_one_of_lt this

theorem ahead_steps (n : Nat) (g : Progress σ) :
    (g.steps p t c n).stage.ahead ≤ g.stage.ahead - n := by
  induction n generalizing g with
  | zero => exact Nat.le_refl _
  | succ n ih =>
    have h₁ := ih (g.step p t c)
    have h₂ := ahead_step (p := p) (t := t) (c := c) g
    simp only [steps]
    omega

/-- What every answer keeps, the whole run keeps. -/
theorem steps_keeps {P : Progress σ → Prop} (keep : ∀ g, P g → P (g.step p t c)) (n : Nat)
    (h : P g) : P (g.steps p t c n) := by
  induction n generalizing g with
  | zero => exact h
  | succ n ih => exact ih (keep g h)

end Progress

theorem drive_isOver (p : RunPolicy) (t : Task) (c : Collaborators σ) (w : σ) :
    (drive p t c w).stage.isOver = true := by
  rw [Stage.isOver_iff_ahead]
  exact Nat.eq_zero_of_le_zero (Progress.ahead_steps 5 _)

/-- A task and a policy for examples. -/
def plainTask : Task where
  id := "t-1"
  title := "Fix login"
  description := none
  notes := none
  area := none
  status := .queued
  commit := none
  metrics := none
  created := ⟨⟨1970, 1, 1, by decide⟩, 0, 0, by decide⟩
  completed := none

def plainPolicy : RunPolicy := ⟨Redactor.ofValues [], ⟨60000000000⟩, ⟨"origin", "main"⟩⟩

end Foreman.Run

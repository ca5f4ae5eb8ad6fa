import Mathlib.Data.List.Basic
import Foreman.Proofs.Run.FinalStatus
import Foreman.Proofs.Text.Digits
import Foreman.Report.Basic

namespace Foreman

/-- What can be neither an option nor an expression for revisions: seven to forty hexadecimal
digits. -/
structure IsCommitHash (s : String) : Prop where
  atLeast : 7 ≤ s.length
  atMost : s.length ≤ 40
  digits : ∀ c ∈ s.toList, c ∈ Text.hexDigits

theorem isCommitHash_ofList (h : CommitClaim.isHash s = true) : IsCommitHash (String.ofList s) := by
  simp only [CommitClaim.isHash, Bool.and_eq_true, decide_eq_true_eq, List.all_eq_true] at h
  obtain ⟨⟨atLeast, atMost⟩, digits⟩ := h
  constructor
  · rwa [String.length_ofList]
  · rwa [String.length_ofList]
  · rw [String.toList_ofList]
    exact fun c hc => Text.mem_hexDigits (digits c hc)

theorem CommitClaim.isHash_of_ofContent (h : ofContent content = .hash s) : isHash s = true := by
  simp only [ofContent] at h
  split at h
  · cases h
  · split at h
    · cases h
      assumption
    · cases h

namespace Report

theorem isHash_of_commitHash? (h : commitHash? texts = some s) : CommitClaim.isHash s = true := by
  induction texts with
  | nil => cases h
  | cons text texts ih =>
    rw [commitHash?] at h
    split at h
    · cases h
    · rename_i claim
      obtain ⟨content, -, hc⟩ := Option.map_eq_some_iff.1 claim
      cases h
      exact CommitClaim.isHash_of_ofContent hc
    · exact ih h
    · exact ih h

theorem isCommitHash_ofOutput {stdout : String} (h : (ofOutput stdout).commit = some s) :
    IsCommitHash s := by
  obtain ⟨found, hf, rfl⟩ := Option.map_eq_some_iff.1 h
  exact isCommitHash_ofList (isHash_of_commitHash? hf)

end Report

namespace Run

/-- The report of an agent that ended in time, with success and without refusing its task. -/
def cleanReport? : Answer ChildOutcome → Option Report
  | .ok o =>
    if o.timedOut = false ∧ o.success = true ∧ (Report.ofOutput o.stdout).flagged = none then
      some (Report.ofOutput o.stdout)
    else none
  | .failed _ | .panicked _ => none

theorem cleanReport?_eq_some (h : cleanReport? a = some r) :
    ∃ o, a = .ok o ∧ r = Report.ofOutput o.stdout := by
  cases a with
  | ok o =>
    simp only [cleanReport?, Option.ite_none_right_eq_some, Option.some.injEq] at h
    exact ⟨o, rfl, h.2.symm⟩
  | failed | panicked => cases h

def answerOf? : Request × Reply → Option (Answer ChildOutcome)
  | (_, .worked a) => some a
  | _ => none

def checkOf? : Request × Reply → Option (String × Except Panic Bool)
  | (.verify commit, .verified a) => some (commit, a)
  | _ => none

/-- The checks are those that the answer of the agent calls for. -/
inductive Licensed : List (Answer ChildOutcome) → List (String × Except Panic Bool) → Prop where
  | unasked : Licensed [] []
  | answered (h : checks.map Prod.fst = ((cleanReport? a).bind Report.commit).toList) :
      Licensed [a] checks

/-- What the agent and the verifier must have answered for a run to have an outcome. -/
def Earned (answers : List (Answer ChildOutcome)) (checks : List (String × Except Panic Bool)) :
    TaskOutcome → Prop
  | .done commit verified => ∃ a r, answers = [a] ∧ cleanReport? a = some r ∧ r.commit = commit ∧
      checks = commit.toList.map (·, .ok verified) ∧ (commit = none → verified = false)
  | .failed _ | .flagged _ | .crashed _ => Licensed answers checks

theorem Earned.licensed (h : Earned answers checks o) : Licensed answers checks := by
  cases o with
  | done commit verified =>
    obtain ⟨a, r, rfl, clean, rfl, rfl, -⟩ := h
    apply Licensed.answered
    rw [clean, List.map_map, Option.bind_some]
    exact List.map_id _
  | failed | flagged | crashed => exact h

theorem Licensed.unchecked (h : Licensed answers checks)
    (dirty : ∀ a ∈ answers, cleanReport? a = none) : checks = [] := by
  cases h with
  | unasked => rfl
  | answered h =>
    rw [dirty _ List.mem_cons_self] at h
    exact List.map_eq_nil_iff.1 h

theorem Licensed.checked (h : Licensed answers checks) (ha : a ∈ answers)
    (clean : cleanReport? a = some r) :
    answers = [a] ∧ checks.map Prod.fst = r.commit.toList := by
  cases h with
  | unasked => cases ha
  | answered h =>
    obtain rfl := List.mem_singleton.1 ha
    rw [clean] at h
    exact ⟨rfl, h⟩

namespace Stage

/-- What the agent and the verifier must have answered for a run to be at a stage. -/
def Grounded (answers : List (Answer ChildOutcome)) (checks : List (String × Except Panic Bool)) :
    Stage → Prop
  | marking | working => answers = [] ∧ checks = []
  | verifying commit _ _ =>
    ∃ a r, answers = [a] ∧ cleanReport? a = some r ∧ r.commit = some commit ∧ checks = []
  | recording o _ _ | ended o => Earned answers checks o
  | burying _ | unwound _ => Licensed answers checks

theorem grounded_worked (p : RunPolicy) (t : Task) (o : ChildOutcome) :
    (afterVerdict p t (verdict p (.ok o))).Grounded [.ok o] [] := by
  have refused (dirty : cleanReport? (.ok o) = none) : Licensed [.ok o] [] := by
    apply Licensed.answered
    rw [dirty]
    rfl
  simp only [verdict, Verdict.ofOutcome]
  split
  · rename_i late
    exact refused (by simp [cleanReport?, late])
  · rename_i inTime
    split
    · rename_i success
      cases flagged : (Report.ofOutput o.stdout).flagged with
      | some reason => exact refused (by simp [cleanReport?, flagged])
      | none =>
        have clean : cleanReport? (.ok o) = some (Report.ofOutput o.stdout) := by
          simp [cleanReport?, inTime, success, flagged]
        cases commit : (Report.ofOutput o.stdout).commit with
        | some s => exact ⟨_, _, rfl, clean, commit, rfl⟩
        | none => exact ⟨_, _, rfl, clean, commit, rfl, fun _ => rfl⟩
    · rename_i failure
      exact refused (by simp [cleanReport?, failure])

theorem Grounded.next (h : Grounded answers checks stage) (hq : request? p t stage = some q)
    (ha : reply.Answers q) :
    (stage.next p t reply).1.Grounded (answers ++ (answerOf? (q, reply)).toList)
      (checks ++ (checkOf? (q, reply)).toList) := by
  cases stage with
  | marking =>
    cases hq
    obtain ⟨rfl, rfl⟩ := h
    cases reply with
    | written a =>
      cases a with
      | ok => exact ⟨rfl, rfl⟩
      | failed | panicked => exact .unasked
    | worked | verified => cases ha
  | working =>
    cases hq
    obtain ⟨rfl, rfl⟩ := h
    cases reply with
    | worked a =>
      cases a with
      | ok o => exact grounded_worked p t o
      | failed | panicked => exact .answered rfl
    | written | verified => cases ha
  | verifying commit notes metrics =>
    cases hq
    obtain ⟨a, r, rfl, clean, found, rfl⟩ := h
    cases reply with
    | verified b =>
      cases b with
      | ok verified => exact ⟨a, r, rfl, clean, found, rfl, fun absent => by cases absent⟩
      | error x =>
        apply Licensed.answered
        rw [clean, Option.bind_some, found]
        rfl
    | written | worked => cases ha
  | recording o u n =>
    cases hq
    cases reply with
    | written a =>
      simp only [answerOf?, checkOf?, Option.toList_none, List.append_nil]
      cases a with
      | ok | failed => exact h
      | panicked x => exact Earned.licensed h
    | worked | verified => cases ha
  | burying error =>
    cases hq
    cases reply with
    | written a =>
      simp only [answerOf?, checkOf?, Option.toList_none, List.append_nil]
      cases a <;> exact h
    | worked | verified => cases ha
  | ended | unwound => cases hq

theorem ended_or_unwound (h : isOver stage = true) :
    (∃ o, stage = .ended o) ∨ ∃ x, stage = .unwound x := by
  cases stage with
  | ended o => exact .inl ⟨o, rfl⟩
  | unwound x => exact .inr ⟨x, rfl⟩
  | marking | working | verifying | recording | burying => cases h

theorem burying_of_next_unwound (h : (next p t stage reply).1 = .unwound x)
    (ne : stage ≠ .unwound x) :
    ∃ error, stage = .burying error ∧ reply = .written (.panicked x) := by
  have verdicts (v : Verdict) : afterVerdict p t v ≠ .unwound x := by
    intro same
    unfold afterVerdict at same
    split at same <;> cases same
  revert h
  fun_cases next p t stage reply with
  | case4 o => exact fun same => (verdicts (verdict p (.ok o)) same).elim
  | case5 f => exact fun same => (verdicts (verdict p (.error f)) same).elim
  | case11 error y =>
    rintro ⟨⟩
    exact ⟨error, rfl, rfl⟩
  | case13 => exact fun same => (ne same).elim
  | _ =>
    intro same
    cases same

end Stage

namespace Progress

def answers (g : Progress σ) : List (Answer ChildOutcome) := g.exchanges.filterMap answerOf?

/-- The commits that were looked for, with what came of it. -/
def checks (g : Progress σ) : List (String × Except Panic Bool) := g.exchanges.filterMap checkOf?

/-- The run has ended with its task stuck; or the store panicked where that was to be recorded, and
the run has no outcome. -/
def LeavesStuck (g : Progress σ) : Prop :=
  (∃ o, g.stage = .ended o ∧ o.finalStatus = .stuck) ∨
    ∃ u x, g.stage = .unwound x ∧ u.status = .stuck ∧ (u, .panicked x) ∈ g.writes

/-- A run is where its answers have led it, and unwinds only from recording its task as stuck. -/
structure Sound (g : Progress σ) : Prop where
  grounded : g.stage.Grounded g.answers g.checks
  unwound : g.stage = .unwound x → ∃ u, u.status = .stuck ∧ (u, .panicked x) ∈ g.writes

variable {g : Progress σ}

theorem Sound.step (h : g.Sound) : (g.step p t c).Sound := by
  cases hq : g.stage.request? p t with
  | none =>
    rw [step_of_isOver ((Stage.request?_eq_none_iff _).1 hq)]
    exact h
  | some q =>
    rw [step_eq hq]
    constructor
    · simp only [answers, checks, List.filterMap_append, List.filterMap_eq_flatMap_toList _ [_],
        List.flatMap_singleton]
      exact h.grounded.next hq (c.reply_answers q g.world)
    · intro x hx
      -- The step came from the last write, and the answer to that is among the exchanges.
      have going : g.stage ≠ .unwound x := by
        intro same
        rw [same] at hq
        cases hq
      obtain ⟨error, burying, broke⟩ := Stage.burying_of_next_unwound hx going
      rw [burying] at hq
      cases hq
      refine ⟨stuckUpdate error, rfl, ?_⟩
      simp only [writes, List.filterMap_append, broke]
      exact List.mem_append_right _ List.mem_cons_self

theorem Sound.earned (h : g.Sound) (hs : g.stage = .ended o) : Earned g.answers g.checks o := by
  have grounded := h.grounded
  rw [hs] at grounded
  exact grounded

theorem Sound.licensed (h : g.Sound) (finished : g.stage.isOver = true) :
    Licensed g.answers g.checks := by
  rcases Stage.ended_or_unwound finished with ⟨o, hs⟩ | ⟨x, hs⟩
  · exact (h.earned hs).licensed
  · have grounded := h.grounded
    rw [hs] at grounded
    exact grounded

theorem Sound.leavesStuck_or (h : g.Sound) (finished : g.stage.isOver = true) :
    g.LeavesStuck ∨ ∃ commit verified, g.stage = .ended (.done commit verified) := by
  rcases Stage.ended_or_unwound finished with ⟨o, hs⟩ | ⟨x, hs⟩
  · cases o with
    | done commit verified => exact .inr ⟨commit, verified, hs⟩
    | failed | flagged | crashed => exact .inl (.inl ⟨_, hs, rfl⟩)
  · obtain ⟨u, stuck, broke⟩ := h.unwound hs
    exact .inl (.inr ⟨u, x, hs, stuck, broke⟩)

end Progress

theorem drive_sound (p : RunPolicy) (t : Task) (c : Collaborators σ) (w : σ) :
    (drive p t c w).Sound := by
  apply Progress.steps_keeps (P := Progress.Sound)
  · exact fun _ h => h.step
  · exact ⟨⟨rfl, rfl⟩, fun h => by cases h⟩

/-- Without a clean report nothing is verified and the task is left stuck, whatever the agent has
printed. With one, its commit is verified, if it reports one, and nothing else; and the task is left
stuck or ends done with that commit and what the verifier said of it, or with no commit. -/
theorem drive_verification (p : RunPolicy) (t : Task) (c : Collaborators σ) (w : σ) :
    ((∀ a ∈ (drive p t c w).answers, cleanReport? a = none) →
      (drive p t c w).checks = [] ∧ (drive p t c w).LeavesStuck) ∧
    ∀ a r, a ∈ (drive p t c w).answers → cleanReport? a = some r →
      (drive p t c w).answers = [a] ∧
      (drive p t c w).checks.map Prod.fst = r.commit.toList ∧
      (∀ commit ∈ r.commit, IsCommitHash commit) ∧
      ((∃ verified, (drive p t c w).stage = .ended (.done r.commit verified) ∧
          (drive p t c w).checks = r.commit.toList.map (·, .ok verified) ∧
          (r.commit = none → verified = false)) ∨
        (drive p t c w).LeavesStuck) := by
  have sound := drive_sound p t c w
  have finished := drive_isOver p t c w
  have licensed := sound.licensed finished
  constructor
  · intro dirty
    refine ⟨licensed.unchecked dirty, ?_⟩
    rcases sound.leavesStuck_or finished with stuck | ⟨commit, verified, hs⟩
    · exact stuck
    · obtain ⟨a, r, ha, clean, -⟩ := sound.earned hs
      have none := dirty a (by rw [ha]; exact List.mem_cons_self)
      rw [none] at clean
      cases clean
  · intro a r ha clean
    obtain ⟨alone, commits⟩ := licensed.checked ha clean
    refine ⟨alone, commits, ?_, ?_⟩
    · intro commit hc
      obtain ⟨o, rfl, rfl⟩ := cleanReport?_eq_some clean
      exact Report.isCommitHash_ofOutput hc
    · rcases sound.leavesStuck_or finished with stuck | ⟨commit, verified, hs⟩
      · exact .inr stuck
      · obtain ⟨a', r', ha', clean', rfl, checks, unverified⟩ := sound.earned hs
        rw [alone] at ha'
        cases ha'
        rw [clean] at clean'
        cases clean'
        exact .inl ⟨verified, hs, checks, unverified⟩

/-- A flag makes the commit block beside it worthless. -/
example : cleanReport? (.ok ⟨true, some 0,
    "TASK_FLAGGED\nunclear\nTASK_FLAGGED_END\nCOMMIT_HASH_START\n0123abc\nCOMMIT_HASH_END\n",
    "", false, 0, 0⟩) = none := by
  decide +kernel

end Run

namespace Rehearsal

open Run

def pushed : ChildOutcome :=
  ⟨true, some 0, "COMMIT_HASH_START\n0123abc\nCOMMIT_HASH_END\n", "", false, 0, 0⟩

/-- The agent does its work and reports a commit. -/
def pushingScript : Script where
  turn _ := ⟨false, .atOnce (.ok pushed)⟩
  verify _ := .ok true
  lookup _ := .answers 0
  writeFault? _ := none
  requeueFault? := none
  preparation _ := .atOnce (.ok ())

def pushingRun : Progress World :=
  drive plainPolicy plainTask (pushingScript.cast.collaborators plainTask.id)
    (.ofBook ⟨[plainTask]⟩ plainTask.created)

theorem verification_pushingRun :
    .ok pushed ∈ pushingRun.answers ∧
      cleanReport? (.ok pushed) = some (Report.ofOutput pushed.stdout) ∧
        (Report.ofOutput pushed.stdout).commit = some "0123abc" ∧
          pushingRun.checks.map Prod.fst = ["0123abc"] := by
  have answered : .ok pushed ∈ pushingRun.answers := by decide +kernel
  have clean : cleanReport? (.ok pushed) = some (Report.ofOutput pushed.stdout) := by
    decide +kernel
  have commit : (Report.ofOutput pushed.stdout).commit = some "0123abc" := by decide +kernel
  obtain ⟨-, checked, -⟩ := (drive_verification _ _ _ _).2 _ _ answered clean
  rw [commit] at checked
  exact ⟨answered, clean, commit, checked⟩

end Rehearsal

end Foreman

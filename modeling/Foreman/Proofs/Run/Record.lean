import Foreman.Proofs.Run.Verification

namespace Foreman

namespace Run

/-- Collaborators of which the store never fails to write to a task that is there, and the others
leave the book alone. -/
structure Collaborators.Upholds (c : Collaborators σ) (id : String) (book : σ → TaskBook) :
    Prop where
  written : ((book w).find? id).isSome = true →
    (c.write u w).1 = .ok () ∧ ∃ now, (book w).update? id u now = some (book (c.write u w).2)
  worked : book (c.work d w).2 = book w
  verified : book (c.verify commit w).2 = book w

/-- The verdict on an answer of the agent, unless it is a panic. -/
def verdict? (p : RunPolicy) : Answer ChildOutcome → Option Verdict
  | .ok o => some (Stage.verdict p (.ok o))
  | .failed f => some (Stage.verdict p (.error f))
  | .panicked _ => none

/-- How a run closes on an answer of the agent: its outcome, and the write that records it. -/
inductive Closing (p : RunPolicy) : Answer ChildOutcome → TaskOutcome → TaskUpdate → Prop
  | done (clean : cleanReport? a = some r) (verified : Bool) :
    Closing p a (.done r.commit verified)
      ⟨.done, r.notes.map p.redactor.redact, some ⟨r.commit, r.metrics⟩⟩
  | failed (found : verdict? p a = some (.failed error system)) :
    Closing p a (.failed (p.redactor.redact error)) (stuckUpdate (p.redactor.redact error))
  | flagged (found : verdict? p a = some (.succeeded notes metrics (some reason) commit)) :
    Closing p a (.flagged (p.redactor.redact reason))
      (stuckUpdate s!"Flagged: {p.redactor.redact reason}")
  | crashed (panic : Panic) :
    Closing p a (.crashed (p.redactor.redact s!"pipeline panicked: {panic.text}"))
      (stuckUpdate (p.redactor.redact s!"pipeline panicked: {panic.text}"))

/-- The report of a run that has closed is that of the verdict. -/
theorem cleanReport?_of_verdict?
    (found : verdict? p a = some (.succeeded notes metrics none commit)) :
    ∃ r, cleanReport? a = some r ∧ r.notes = notes ∧ r.metrics = metrics ∧ r.commit = commit := by
  cases a with
  | ok o =>
    simp only [verdict?, Stage.verdict, Verdict.ofOutcome, Option.some.injEq] at found
    split at found
    · cases found
    · rename_i inTime
      split at found
      · rename_i success
        simp only [Verdict.succeeded.injEq] at found
        obtain ⟨rfl, rfl, flagged, rfl⟩ := found
        exact ⟨_, by simp [cleanReport?, inTime, success, flagged], rfl, rfl, rfl⟩
      · cases found
  | failed f => cases found
  | panicked x => cases found

theorem Collaborators.Upholds.write {c : Collaborators σ} {book : σ → TaskBook}
    (upholds : c.Upholds s.id book) (hb : (book w).tasks = front ++ s :: back)
    (other : ∀ x ∈ front, x.id ≠ s.id) (u : TaskUpdate) :
    ∃ now w', c.write u w = (.ok (), w') ∧ (book w').tasks = front ++ s.update u now :: back := by
  have there : ((book w).find? s.id).isSome = true := by
    rw [TaskBook.find?, List.find?_isSome]
    exact ⟨s, by simp [hb], by simp⟩
  obtain ⟨done, now, changed⟩ := upholds.written (u := u) there
  have changed' : (book w).update? s.id u now = some ⟨front ++ s.update u now :: back⟩ := by
    apply Option.map_eq_some_iff.2
    exact ⟨_, TaskBook.changeFirst?_eq_some.2 ⟨front, s, back, hb, rfl, other, rfl⟩, rfl⟩
  rw [changed'] at changed
  refine ⟨now, (c.write u w).2, Prod.ext done rfl, ?_⟩
  rw [← Option.some.inj changed]

namespace Progress

variable {g : Progress σ} {c : Collaborators σ} {stage : Stage} {book : σ → TaskBook}

theorem step_reply (hs : g.stage = stage) (ha : g.answers = earlier)
    (hq : stage.request? p t = some q) (hr : c.reply q g.world = (reply, w)) :
    (g.step p t c).stage = (stage.next p t reply).1 ∧
      (g.step p t c).answers = earlier ++ (answerOf? (q, reply)).toList ∧
        (g.step p t c).world = w := by
  subst hs ha
  rw [step_eq hq, hr]
  refine ⟨rfl, ?_, rfl⟩
  simp only [answers, List.filterMap_append, List.filterMap_eq_flatMap_toList _ [_],
    List.flatMap_singleton]

/-- How the book stands while a run is at a stage, if `s` was the record of its task before. -/
inductive Keeping (p : RunPolicy) (book : σ → TaskBook) (front : List Task) (s : Task)
    (back : List Task) (g : Progress σ) : Prop where
  | fresh (hs : g.stage = .marking) (ha : g.answers = [])
      (hb : (book g.world).tasks = front ++ s :: back)
  | marked (hs : g.stage = .working) (ha : g.answers = [])
      (hb : (book g.world).tasks = front ++ s.update mark now :: back)
  | reported (hs : g.stage = .verifying commit r.notes r.metrics) (ha : g.answers = [a])
      (clean : cleanReport? a = some r) (hc : r.commit = some commit)
      (hb : (book g.world).tasks = front ++ s.update mark now :: back)
  | concluded (hs : g.stage = .recording o u n) (ha : g.answers = [a]) (hc : Closing p a o u)
      (hb : (book g.world).tasks = front ++ s.update mark now :: back)
  | broken (x : Panic) (hs : g.stage = Stage.afterPanic p x) (ha : g.answers = [a])
      (hb : (book g.world).tasks = front ++ s.update mark now :: back)
  | closed (hs : g.stage = .ended o) (ha : g.answers = [a]) (hc : Closing p a o u)
      (hb : (book g.world).tasks = front ++ (s.update mark now).update u later :: back)

theorem Keeping.of_verdict (found : verdict? p a = some v) (hs : g.stage = Stage.afterVerdict p t v)
    (ha : g.answers = [a]) (hb : (book g.world).tasks = front ++ s.update mark now :: back) :
    g.Keeping p book front s back := by
  cases v with
  | failed error system => exact .concluded hs ha (.failed found) hb
  | succeeded notes metrics flagged commit =>
    cases flagged with
    | some reason => exact .concluded hs ha (.flagged found) hb
    | none =>
      obtain ⟨r, clean, rfl, rfl, rfl⟩ := cleanReport?_of_verdict? found
      cases hc : r.commit with
      | some commit =>
        rw [hc] at hs
        exact .reported hs ha clean hc hb
      | none =>
        have closing := Closing.done (p := p) clean false
        rw [hc] at hs closing
        exact .concluded hs ha closing hb

theorem Keeping.fresh_step (upholds : c.Upholds t.id book) (own : s.id = t.id)
    (other : ∀ x ∈ front, x.id ≠ t.id) (hs : g.stage = .marking) (ha : g.answers = [])
    (hb : (book g.world).tasks = front ++ s :: back) :
    (g.step p t c).Keeping p book front s back := by
  rw [← own] at upholds other
  obtain ⟨now, w, hw, hb'⟩ := upholds.write hb other mark
  have hr : c.reply (.write mark) g.world = (.written (.ok ()), w) := by
    simp only [Collaborators.reply, hw]
  obtain ⟨hs', ha', rfl⟩ := step_reply (p := p) (t := t) hs ha rfl hr
  exact .marked hs' ha' hb'

/-- The write of an outcome closes the run. -/
theorem Keeping.closing_step (upholds : c.Upholds t.id book) (own : s.id = t.id)
    (other : ∀ x ∈ front, x.id ≠ t.id) (hs : g.stage = stage) (ha : g.answers = [a])
    (hq : stage.request? p t = some (.write u))
    (next : (stage.next p t (.written (.ok ()))).1 = .ended o) (hc : Closing p a o u)
    (hb : (book g.world).tasks = front ++ s.update mark now :: back) :
    (g.step p t c).Keeping p book front s back := by
  rw [← own] at upholds other
  obtain ⟨later, w, hw, hb'⟩ :=
    Collaborators.Upholds.write (s := s.update mark now) upholds hb other u
  have hr : c.reply (.write u) g.world = (.written (.ok ()), w) := by
    simp only [Collaborators.reply, hw]
  obtain ⟨hs', ha', rfl⟩ := step_reply hs ha hq hr
  exact .closed (hs'.trans next) ha' hc hb'

theorem Keeping.marked_step (upholds : c.Upholds t.id book) (hs : g.stage = .working)
    (ha : g.answers = [])
    (hb : (book g.world).tasks = front ++ s.update mark now :: back) :
    (g.step p t c).Keeping p book front s back := by
  have same : book (c.work (Directive.text t p.target) g.world).2 = book g.world := upholds.worked
  obtain ⟨hs', ha', hw'⟩ := step_reply (p := p) (t := t) (c := c) hs ha rfl rfl
  have hb' : (book (g.step p t c).world).tasks = front ++ s.update mark now :: back := by
    rw [hw']
    exact (congrArg TaskBook.tasks same).trans hb
  cases answer : (c.work (Directive.text t p.target) g.world).1 with
  | ok o =>
    simp only [answer] at hs' ha'
    exact .of_verdict (v := Stage.verdict p (.ok o)) rfl hs' ha' hb'
  | failed f =>
    simp only [answer] at hs' ha'
    exact .of_verdict (v := Stage.verdict p (.error f)) rfl hs' ha' hb'
  | panicked x =>
    simp only [answer] at hs' ha'
    exact .broken x hs' ha' hb'

theorem Keeping.reported_step (upholds : c.Upholds t.id book)
    (hs : g.stage = .verifying commit r.notes r.metrics) (ha : g.answers = [a])
    (clean : cleanReport? a = some r) (hc : r.commit = some commit)
    (hb : (book g.world).tasks = front ++ s.update mark now :: back) :
    (g.step p t c).Keeping p book front s back := by
  have same : book (c.verify commit g.world).2 = book g.world := upholds.verified
  obtain ⟨hs', ha', hw'⟩ := step_reply (p := p) (t := t) (c := c) hs ha rfl rfl
  have hb' : (book (g.step p t c).world).tasks = front ++ s.update mark now :: back := by
    rw [hw']
    exact (congrArg TaskBook.tasks same).trans hb
  cases answer : (c.verify commit g.world).1 with
  | ok verified =>
    simp only [answer] at hs' ha'
    have closing := Closing.done (p := p) clean verified
    rw [hc] at closing
    exact .concluded hs' ha' closing hb'
  | error x =>
    simp only [answer] at hs' ha'
    exact .broken x hs' ha' hb'

theorem Keeping.step (upholds : c.Upholds t.id book) (own : s.id = t.id)
    (other : ∀ x ∈ front, x.id ≠ t.id) (h : g.Keeping p book front s back) :
    (g.step p t c).Keeping p book front s back := by
  cases h with
  | fresh hs ha hb => exact .fresh_step upholds own other hs ha hb
  | marked hs ha hb => exact .marked_step upholds hs ha hb
  | reported hs ha clean hc hb => exact .reported_step upholds hs ha clean hc hb
  | concluded hs ha hc hb => exact .closing_step upholds own other hs ha rfl rfl hc hb
  | broken x hs ha hb => exact .closing_step upholds own other hs ha rfl rfl (.crashed x) hb
  | closed hs ha hc hb =>
    rw [step_of_isOver (by rw [hs]; rfl)]
    exact .closed hs ha hc hb

theorem Keeping.of_isOver (h : g.Keeping p book front s back) (done : g.stage.isOver = true) :
    ∃ o a u now later, g.stage = .ended o ∧ g.answers = [a] ∧ Closing p a o u ∧
      (book g.world).tasks = front ++ (s.update mark now).update u later :: back := by
  cases h with
  | closed hs ha hc hb => exact ⟨_, _, _, _, _, hs, ha, hc, hb⟩
  | fresh hs | marked hs | reported hs | concluded hs | broken x hs =>
    rw [hs] at done
    cases done

end Progress

/-- What is left of the record `s` of a task by a run that ends with an outcome after an answer of
the agent. -/
def Leaves (p : RunPolicy) (a : Answer ChildOutcome) (s s' : Task) : TaskOutcome → Prop
  | .done commit _ => ∃ r, cleanReport? a = some r ∧ r.commit = commit ∧
      s'.commit = r.commit ∧ s'.metrics = r.metrics ∧
        s'.notes = (r.notes.map p.redactor.redact).or s.notes ∧ s'.completed.isSome = true
  | .failed error => (∃ raw system, verdict? p a = some (.failed raw system) ∧
        error = p.redactor.redact raw) ∧
      s'.commit = s.commit ∧ s'.metrics = s.metrics ∧ s'.notes = some error ∧ s'.completed = none
  | .flagged reason => (∃ raw notes metrics commit,
        verdict? p a = some (.succeeded notes metrics (some raw) commit) ∧
          reason = p.redactor.redact raw) ∧
      s'.commit = s.commit ∧ s'.metrics = s.metrics ∧ s'.notes = some s!"Flagged: {reason}" ∧
        s'.completed = none
  | .crashed error => (∃ x : Panic, error = p.redactor.redact s!"pipeline panicked: {x.text}") ∧
      s'.commit = s.commit ∧ s'.metrics = s.metrics ∧ s'.notes = some error ∧ s'.completed = none

theorem Closing.leaves (h : Closing p a o u) (s : Task) (now later : Instant) :
    Leaves p a s ((s.update mark now).update u later) o := by
  cases h with
  | done clean verified =>
    refine ⟨_, clean, rfl, rfl, rfl, ?_, rfl⟩
    rw [Option.or_eq_orElse]
    rfl
  | failed found => exact ⟨⟨_, _, found, rfl⟩, rfl, rfl, rfl, rfl⟩
  | flagged found => exact ⟨⟨_, _, _, _, found, rfl⟩, rfl, rfl, rfl, rfl⟩
  | crashed x => exact ⟨⟨x, rfl⟩, rfl, rfl, rfl, rfl⟩

theorem Closing.status (h : Closing p a o u) : u.status = o.finalStatus := by
  cases h <;> rfl

/-- A run whose store does not fail ends with an outcome and leaves the book as it was but for the
record of its task. There it leaves alone what was given when the task was made; the rest is this
run's, or of the run before where this one has nothing to say about it. -/
theorem drive_record {c : Collaborators σ} {book : σ → TaskBook} (upholds : c.Upholds t.id book)
    (distinct : (book w).Distinct) (there : (book w).tasks = front ++ s :: back)
    (own : s.id = t.id) :
    ∃ o a s', (drive p t c w).stage = .ended o ∧ (drive p t c w).answers = [a] ∧
      (book (drive p t c w).world).tasks = front ++ s' :: back ∧
      s'.ref = s.ref ∧ s'.description = s.description ∧ s'.area = s.area ∧
      s'.created = s.created ∧ s'.status = o.finalStatus ∧ Leaves p a s s' o := by
  have other : ∀ x ∈ front, x.id ≠ t.id := own ▸ distinct.ne_of_front there
  have keeping : (drive p t c w).Keeping p book front s back :=
    Progress.steps_keeps (fun _ h => h.step upholds own other) 5 (.fresh rfl rfl there)
  obtain ⟨o, a, u, now, later, hs, ha, hc, hb⟩ := keeping.of_isOver (drive_isOver p t c w)
  exact ⟨o, a, _, hs, ha, hb, rfl, rfl, rfl, rfl, hc.status, hc.leaves s now later⟩

end Run

namespace Rehearsal

open Run

/-- A script upholds the book if no fault strikes its writes. -/
theorem Script.upholds (s : Script) (sound : ∀ status, s.writeFault? status = none) (id : String) :
    (s.cast.collaborators id).Upholds id World.book where
  written {w u} there := by
    change (s.write id u w).1 = .ok () ∧
      ∃ now, w.book.update? id u now = some (s.write id u w).2.book
    obtain ⟨x, hx⟩ := Option.isSome_iff_exists.1 there
    obtain ⟨front, back, split, other⟩ := TaskBook.split_of_find? hx
    have changed : w.book.update? id u w.now = some ⟨front ++ x.update u w.now :: back⟩ := by
      apply Option.map_eq_some_iff.2
      refine ⟨_, TaskBook.changeFirst?_eq_some.2 ⟨front, x, back, split, ?_, other, rfl⟩, rfl⟩
      simpa using List.find?_some hx
    unfold Script.write
    simp only [sound, World.write, changed, true_and]
    exact ⟨w.now, changed⟩
  worked := rfl
  verified {commit w} := by
    change (s.verification commit w).2.book = w.book
    unfold Script.verification
    split <;> rfl

/-- The agent has nothing to commit this time. -/
def idleScript : Script where
  turn _ :=
    ⟨false, .atOnce (.ok ⟨true, some 0, "COMMIT_HASH_START none COMMIT_HASH_END", "", false, 0, 0⟩)⟩
  verify _ := .ok true
  lookup _ := .answers 0
  writeFault? _ := none
  requeueFault? := none
  preparation _ := .atOnce (.ok ())

/-- A task that was run before. -/
def workedTask : Task :=
  { plainTask with
    notes := some "added a test"
    commit := some "0123abc"
    metrics := some { Metrics.empty with turns := some 9 } }

def workedBook : TaskBook :=
  ⟨[{ plainTask with id := "t-0" }, workedTask, { plainTask with id := "t-2" }]⟩

def rerun : Progress World :=
  drive plainPolicy workedTask (idleScript.cast.collaborators workedTask.id)
    (.ofBook workedBook plainTask.created)

theorem record_rerun :
    (idleScript.cast.collaborators workedTask.id).Upholds workedTask.id World.book ∧
    workedBook.Distinct ∧
    rerun.world.book.tasks.map (·.commit) = [none, none, none] ∧
    ∃ o a s', rerun.stage = .ended o ∧ rerun.answers = [a] ∧
      rerun.world.book.tasks =
        [{ plainTask with id := "t-0" }] ++ s' :: [{ plainTask with id := "t-2" }] ∧
      s'.ref = workedTask.ref ∧ s'.description = workedTask.description ∧
      s'.area = workedTask.area ∧ s'.created = workedTask.created ∧ s'.status = o.finalStatus ∧
      Leaves plainPolicy a workedTask s' o := by
  have upholds := idleScript.upholds (fun _ => rfl) workedTask.id
  have distinct : workedBook.Distinct := by
    unfold TaskBook.Distinct
    decide
  exact ⟨upholds, distinct, by decide +kernel, drive_record upholds distinct rfl rfl⟩

end Rehearsal

end Foreman

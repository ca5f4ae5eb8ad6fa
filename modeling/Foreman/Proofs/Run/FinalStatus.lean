import Foreman.Proofs.Run.Progress
import Foreman.Proofs.Task.Book
import Foreman.Rehearsal.Script

namespace Foreman

theorem TaskOutcome.finalStatus_eq (o : TaskOutcome) :
    o.finalStatus = .done ∨ o.finalStatus = .stuck := by
  cases o <;> simp [TaskOutcome.finalStatus]

namespace Run

/-- The first write of every run. -/
def mark : TaskUpdate := .ofStatus .inProgress

/-- What is told of the commit of a run that is done. -/
def commitText (target : PushTarget) : Option String → Bool → String
  | none, _ => "No commit was made."
  | some hash, true =>
    "Commit " ++ hash ++ " pushed to " ++ (target.remote ++ "/" ++ target.branch) ++ "."
  | some hash, false =>
    "Commit " ++ hash ++ " could not be verified on " ++ (target.remote ++ "/" ++ target.branch) ++
      "."

/-- What is told of an outcome. A crash is told of like a failure. -/
def closingText (target : PushTarget) (title : String) : TaskOutcome → String
  | .done commit verified =>
    "Task done: " ++ title ++ "\n" ++ commitText target commit verified
  | .failed error | .crashed error => "Task failed: " ++ title ++ "\n" ++ error
  | .flagged reason => "Task flagged: " ++ title ++ "\nReason: " ++ reason

def writeOf? : Request × Reply → Option (TaskUpdate × Answer Unit)
  | (.write u, .written a) => some (u, a)
  | _ => none

namespace Progress

variable {g : Progress σ} {c : Collaborators σ} {now : Stage}

/-- The writes that were attempted, with what became of them. -/
def writes (g : Progress σ) : List (TaskUpdate × Answer Unit) := g.exchanges.filterMap writeOf?

theorem step_write (hs : g.stage = now) (hw : g.writes = earlier) (hn : g.notices = told)
    (hq : now.request? p t = some (.write u)) (hr : c.write u g.world = (a, w)) :
    (g.step p t c).stage = (now.next p t (.written a)).1 ∧
      (g.step p t c).writes = earlier ++ [(u, a)] ∧
        (g.step p t c).notices = told ++ (now.next p t (.written a)).2 ∧
          (g.step p t c).world = w := by
  subst hs hw hn
  have reply : c.reply (.write u) g.world = (.written a, w) := by
    simp only [Collaborators.reply, hr]
  rw [step_eq hq, reply]
  refine ⟨rfl, ?_, rfl, rfl⟩
  simp only [writes, List.filterMap_append]
  rfl

theorem step_work (hs : g.stage = now) (hw : g.writes = earlier) (hn : g.notices = told)
    (hq : now.request? p t = some (.work d)) (hr : c.work d g.world = (a, w)) :
    (g.step p t c).stage = (now.next p t (.worked a)).1 ∧ (g.step p t c).writes = earlier ∧
      (g.step p t c).notices = told ++ (now.next p t (.worked a)).2 := by
  subst hs hw hn
  have reply : c.reply (.work d) g.world = (.worked a, w) := by
    simp only [Collaborators.reply, hr]
  rw [step_eq hq, reply]
  refine ⟨rfl, ?_, rfl⟩
  simp only [writes, List.filterMap_append]
  exact List.append_nil _

theorem step_verify (hs : g.stage = now) (hw : g.writes = earlier) (hn : g.notices = told)
    (hq : now.request? p t = some (.verify commit)) (hr : c.verify commit g.world = (a, w)) :
    (g.step p t c).stage = (now.next p t (.verified a)).1 ∧ (g.step p t c).writes = earlier ∧
      (g.step p t c).notices = told ++ (now.next p t (.verified a)).2 := by
  subst hs hw hn
  have reply : c.reply (.verify commit) g.world = (.verified a, w) := by
    simp only [Collaborators.reply, hr]
  rw [step_eq hq, reply]
  refine ⟨rfl, ?_, rfl⟩
  simp only [writes, List.filterMap_append]
  exact List.append_nil _

/-- How the writes and notices of a run stand at each of its stages. -/
inductive Account (p : RunPolicy) (t : Task) (c : Collaborators σ) (g : Progress σ) : Prop where
  | fresh (hs : g.stage = .marking) (hw : g.writes = []) (hn : g.notices = [])
  | started
      (hs : g.stage = .working ∨ ∃ commit notes metrics, g.stage = .verifying commit notes metrics)
      (hw : g.writes = [(mark, .ok ())]) (hn : g.notices = [startedNotice t])
  | concluded (hs : g.stage = .recording o u n) (hw : g.writes = [(mark, .ok ())])
      (hn : g.notices = [startedNotice t]) (hu : u.status = o.finalStatus)
      (hc : n = closingText p.target t.title o)
  | unmarked (hs : g.stage = .burying e) (hw : g.writes = [(mark, a)]) (hn : g.notices = [])
      (ha : a ≠ .ok ())
  | broken (hs : g.stage = .burying e) (hw : g.writes = [(mark, .ok ())])
      (hn : g.notices = [startedNotice t])
  | unrecorded (hs : g.stage = .burying e) (hw : g.writes = [(mark, .ok ()), (u, .panicked x)])
      (hn : g.notices = [startedNotice t]) (hu : u.status = .done)
  | closed (hs : g.stage = .ended o) (hw : g.writes = (mark, a) :: earlier ++ [(u, b)])
      (hn : g.notices = (if a = .ok () then [startedNotice t] else []) ++ [n])
      (he : earlier = [] ∨ ∃ v x, earlier = [(v, .panicked x)] ∧ v.status = .done)
      (hu : u.status = o.finalStatus) (hc : n = closingText p.target t.title o)
      (hl : c.write u w = (b, g.world))

theorem Account.verdict (v : Verdict) (hs : g.stage = Stage.afterVerdict p t v)
    (hw : g.writes = [(mark, .ok ())]) (hn : g.notices = [startedNotice t]) : Account p t c g := by
  cases v with
  | failed error system => exact .concluded hs hw hn rfl rfl
  | succeeded notes metrics flagged commit =>
    cases flagged with
    | some reason => exact .concluded hs hw hn rfl rfl
    | none =>
      cases commit with
      | some hash => exact .started (.inr ⟨hash, notes, metrics, hs⟩) hw hn
      | none => exact .concluded hs hw hn rfl rfl

/-- The write that records a task as stuck closes the run: by `steady` it does not break off. -/
theorem Account.buried (steady : ∀ u w x, u.status = .stuck → (c.write u w).1 ≠ .panicked x)
    (hs : g.stage = .burying e) (hw : g.writes = (mark, a) :: earlier)
    (hn : g.notices = if a = .ok () then [startedNotice t] else [])
    (he : earlier = [] ∨ ∃ v x, earlier = [(v, .panicked x)] ∧ v.status = .done) :
    Account p t c (g.step p t c) := by
  cases hr : c.write (stuckUpdate e) g.world with
  | mk b w =>
    obtain ⟨h₁, h₂, h₃, h₄⟩ := step_write hs hw hn rfl hr
    cases b with
    | ok | failed => exact .closed h₁ h₂ h₃ he rfl rfl (by rw [h₄, hr])
    | panicked x => exact (steady _ g.world x rfl (by rw [hr])).elim

/-- The write of an outcome closes the run, unless it was to say that the task is done and broke
off. -/
theorem Account.recorded (steady : ∀ u w x, u.status = .stuck → (c.write u w).1 ≠ .panicked x)
    (hs : g.stage = .recording o u n) (hw : g.writes = [(mark, .ok ())])
    (hn : g.notices = [startedNotice t]) (hu : u.status = o.finalStatus)
    (hc : n = closingText p.target t.title o) : Account p t c (g.step p t c) := by
  cases hr : c.write u g.world with
  | mk a w =>
    obtain ⟨h₁, h₂, h₃, h₄⟩ := step_write hs hw hn rfl hr
    cases a with
    | ok | failed => exact .closed h₁ h₂ h₃ (.inl rfl) hu hc (by rw [h₄, hr])
    | panicked x =>
      refine .unrecorded h₁ h₂ h₃ ?_
      cases o with
      | done commit verified => exact hu
      | failed | flagged | crashed => exact (steady u g.world x hu (by rw [hr])).elim

theorem Account.worked (hs : g.stage = .working) (hw : g.writes = [(mark, .ok ())])
    (hn : g.notices = [startedNotice t]) : Account p t c (g.step p t c) := by
  cases hr : c.work (Directive.text t p.target) g.world with
  | mk a w =>
    obtain ⟨h₁, h₂, h₃⟩ := step_work hs hw hn rfl hr
    cases a with
    | ok o => exact .verdict (Stage.verdict p (.ok o)) h₁ h₂ h₃
    | failed f => exact .verdict (Stage.verdict p (.error f)) h₁ h₂ h₃
    | panicked x => exact .broken h₁ h₂ h₃

theorem Account.verified (hs : g.stage = .verifying commit notes metrics)
    (hw : g.writes = [(mark, .ok ())]) (hn : g.notices = [startedNotice t]) :
    Account p t c (g.step p t c) := by
  cases hr : c.verify commit g.world with
  | mk a w =>
    obtain ⟨h₁, h₂, h₃⟩ := step_verify hs hw hn rfl hr
    cases a with
    | ok b =>
      have told : doneNotice t (commitSummary p.target commit b) =
          closingText p.target t.title (.done (some commit) b) := by
        cases b <;> rfl
      exact .concluded h₁ h₂ h₃ rfl told
    | error x => exact .broken h₁ h₂ h₃

theorem Account.marked (hs : g.stage = .marking) (hw : g.writes = []) (hn : g.notices = []) :
    Account p t c (g.step p t c) := by
  cases hr : c.write mark g.world with
  | mk a w =>
    obtain ⟨h₁, h₂, h₃, -⟩ := step_write hs hw hn rfl hr
    cases a with
    | ok x => exact .started (.inl h₁) h₂ h₃
    | failed | panicked => exact .unmarked h₁ h₂ h₃ nofun

theorem Account.step (h : Account p t c g)
    (steady : ∀ u w x, u.status = .stuck → (c.write u w).1 ≠ .panicked x) :
    Account p t c (g.step p t c) := by
  cases h with
  | fresh hs hw hn => exact .marked hs hw hn
  | started hs hw hn =>
    rcases hs with hs | ⟨commit, notes, metrics, hs⟩
    · exact .worked hs hw hn
    · exact .verified hs hw hn
  | concluded hs hw hn hu hc => exact .recorded steady hs hw hn hu hc
  | unmarked hs hw hn ha => exact .buried steady hs hw (by rw [hn, if_neg ha]) (.inl rfl)
  | broken hs hw hn => exact .buried steady hs hw hn (.inl rfl)
  | unrecorded hs hw hn hu => exact .buried steady hs hw hn (.inr ⟨_, _, rfl, hu⟩)
  | closed hs hw hn he hu hc hl =>
    rw [step_of_isOver (by rw [hs]; rfl)]
    exact .closed hs hw hn he hu hc hl

theorem Account.of_isOver (h : Account p t c g) (ended : g.stage.isOver = true) :
    ∃ o a earlier u b w,
      g.stage = .ended o ∧ g.writes = (mark, a) :: earlier ++ [(u, b)] ∧
        g.notices =
          (if a = .ok () then [startedNotice t] else []) ++ [closingText p.target t.title o] ∧
          (earlier = [] ∨ ∃ v x, earlier = [(v, .panicked x)] ∧ v.status = .done) ∧
            u.status = o.finalStatus ∧ c.write u w = (b, g.world) := by
  cases h with
  | closed hs hw hn he hu hc hl => exact ⟨_, _, _, _, _, _, hs, hw, hc ▸ hn, he, hu, hl⟩
  | fresh hs | concluded hs | unmarked hs | broken hs | unrecorded hs =>
    rw [hs] at ended
    cases ended
  | started hs =>
    rcases hs with hs | ⟨_, _, _, hs⟩ <;>
    · rw [hs] at ended
      cases ended

end Progress

/-- Collaborators that keep a task in a book: a write that succeeds changes the book, and one that
records the task as stuck does not break off. -/
structure Collaborators.Keeps (c : Collaborators σ) (id : String) (book : σ → TaskBook) : Prop where
  applied : c.write u w = (.ok (), w') → ∃ now, (book w).update? id u now = some (book w')
  steady : u.status = .stuck → (c.write u w).1 ≠ .panicked x

/-- Whatever the agent, the verifier and the store do, a run ends with an outcome. It marks its task
first and once, and its last write has the final status of the outcome; another write stands between
the two only if it was to record the task as done and broke off. One notice says that the task is
done, failed or flagged, as the outcome is, after one that it was started if the mark was made. -/
theorem drive_final_status {book : σ → TaskBook} (keeps : c.Keeps t.id book) (w : σ) :
    ∃ o a earlier u b,
      (drive p t c w).stage = .ended o ∧
      (drive p t c w).writes = (mark, a) :: earlier ++ [(u, b)] ∧
      (drive p t c w).writes.countP (·.1.status = .inProgress) = 1 ∧
      (earlier = [] ∨ ∃ v x, earlier = [(v, .panicked x)] ∧ v.status = .done) ∧
      u.status = o.finalStatus ∧ (o.finalStatus = .done ∨ o.finalStatus = .stuck) ∧
      (drive p t c w).notices =
        (if a = .ok () then ["Started task: " ++ t.title] else []) ++
          [closingText p.target t.title o] ∧
      (b = .ok () → (book (drive p t c w).world).status? t.id = some o.finalStatus) := by
  have account : (drive p t c w).Account p t c :=
    Progress.steps_keeps (fun _ h => h.step fun _ _ _ => keeps.steady) 5 (.fresh rfl rfl rfl)
  obtain ⟨o, a, earlier, u, b, w', hs, hw, hn, he, hu, hl⟩ :=
    account.of_isOver (drive_isOver p t c w)
  refine ⟨o, a, earlier, u, b, hs, hw, ?_, he, hu, o.finalStatus_eq, hn, ?_⟩
  · have last : ¬ u.status = .inProgress := by
      rw [hu]
      cases o <;> nofun
    rw [hw]
    rcases he with rfl | ⟨v, x, rfl, hv⟩
    · simp [mark, TaskUpdate.ofStatus, last]
    · simp [mark, TaskUpdate.ofStatus, last, hv]
  · rintro rfl
    obtain ⟨now, hb⟩ := keeps.applied hl
    rw [TaskBook.status?_update? hb, if_pos rfl, hu]

end Run

namespace Rehearsal

open Run

/-- A script keeps the task if the faults in it are faults and spare the last status. -/
theorem Script.keeps (s : Script) (faults : ∀ status, s.writeFault? status ≠ some (.ok ()))
    (spares : ∀ x, s.writeFault? .stuck ≠ some (.panicked x)) (id : String) :
    (s.cast.collaborators id).Keeps id World.book where
  applied {u w w'} h := by
    change s.write id u w = (.ok (), w') at h
    unfold Script.write at h
    cases hf : s.writeFault? u.status with
    | some a =>
      rw [hf] at h
      cases h
      exact (faults _ hf).elim
    | none =>
      rw [hf] at h
      cases hb : w.book.update? id u w.now with
      | none => simp [World.write, hb] at h
      | some b =>
        simp only [World.write, hb, Prod.mk.injEq, true_and] at h
        exact ⟨w.now, h ▸ hb⟩
  steady {u w x} hu := by
    change (s.write id u w).1 ≠ .panicked x
    unfold Script.write
    cases hf : s.writeFault? u.status with
    | some a =>
      rintro rfl
      exact spares x (hu ▸ hf)
    | none => cases hb : w.book.update? id u w.now <;> simp [World.write, hb]

/-- The agent does its work, but to record the task as done breaks off. -/
def brokenScript : Script where
  turn _ := ⟨false, .atOnce (.ok ⟨true, some 0, "", "", false, 0, 0⟩)⟩
  verify _ := .ok true
  lookup _ := .answers 0
  writeFault?
    | .done => some (.panicked .other)
    | _ => none
  requeueFault? := none
  preparation _ := .atOnce (.ok ())

theorem brokenScript_keeps :
    (brokenScript.cast.collaborators plainTask.id).Keeps plainTask.id World.book :=
  brokenScript.keeps (fun status => by cases status <;> nofun) nofun _

def brokenRun : Progress World :=
  drive plainPolicy plainTask (brokenScript.cast.collaborators plainTask.id)
    (.ofBook ⟨[plainTask]⟩ plainTask.created)

theorem final_status_brokenRun :
    (brokenScript.cast.collaborators plainTask.id).Keeps plainTask.id World.book ∧
    brokenRun.writes.map (·.1.status) = [.inProgress, .done, .stuck] ∧
    ∃ o a earlier u b,
      brokenRun.stage = .ended o ∧
      brokenRun.writes = (mark, a) :: earlier ++ [(u, b)] ∧
      brokenRun.writes.countP (·.1.status = .inProgress) = 1 ∧
      (earlier = [] ∨ ∃ v x, earlier = [(v, .panicked x)] ∧ v.status = .done) ∧
      u.status = o.finalStatus ∧ (o.finalStatus = .done ∨ o.finalStatus = .stuck) ∧
      brokenRun.notices =
        (if a = .ok () then ["Started task: " ++ plainTask.title] else []) ++
          [closingText plainPolicy.target plainTask.title o] ∧
      (b = .ok () → brokenRun.world.book.status? plainTask.id = some o.finalStatus) :=
  ⟨brokenScript_keeps, by decide +kernel, drive_final_status brokenScript_keeps _⟩

end Rehearsal

end Foreman

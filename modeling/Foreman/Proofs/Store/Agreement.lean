import Foreman.Proofs.Store.File
import Foreman.Proofs.Task.Book

namespace Foreman

def TaskUpdate.Restored (u : TaskUpdate) : Prop := ∀ r ∈ u.run, ∀ m ∈ r.metrics, m.Restored

/-- The amounts that a call brings into the book. -/
def StoreCall.Restored : StoreCall → Prop
  | set _ u => u.Restored
  | _ => True

theorem Task.Restored.update {t : Task} (h : t.Restored) (new : u.Restored) (now : Instant) :
    (t.update u now).Restored := by
  intro m hm
  unfold Task.update at hm
  cases hr : u.run with
  | none =>
    rw [hr] at hm
    exact h m hm
  | some r =>
    rw [hr] at hm
    exact new r hr m hm

theorem Task.Restored.requeue {t : Task} (h : t.Restored) : t.requeue.Restored := by
  unfold Task.requeue
  split
  · exact h
  · exact h

namespace TaskBook

variable {b b' : TaskBook} {c : StoreCall} {o : Occasion}

theorem Restored.answer (h : b.Restored) (new : c.Restored)
    (answered : b.answer c o = .ok (r, some b')) : b'.Restored := by
  cases c with
  | fetch | list => cases answered
  | find id =>
    simp only [TaskBook.answer] at answered
    split at answered <;> cases answered
  | set id u =>
    simp only [TaskBook.answer] at answered
    split at answered
    · rename_i changed
      cases answered
      obtain ⟨ts, hs, rfl⟩ := Option.map_eq_some_iff.1 changed
      intro t ht
      rcases mem_of_changeFirst? hs ht with old | ⟨t₀, old, -, rfl⟩
      · exact h t old
      · exact (h t₀ old).update new o.now
    · cases answered
  | requeue =>
    simp only [TaskBook.answer, Except.ok.injEq, Prod.mk.injEq] at answered
    obtain ⟨-, answered⟩ := answered
    split at answered
    · cases answered
      intro t ht
      obtain ⟨t₀, old, rfl⟩ := List.mem_map.1 ht
      exact (h t₀ old).requeue
    · cases answered
  | insert d =>
    cases answered
    intro t ht
    rcases List.mem_append.1 ht with old | new
    · exact h t old
    · rw [List.mem_singleton.1 new]
      exact nofun

/-- The only way for a book to refuse a call is that it has no task with the id. -/
theorem notFound_of_answer (refused : b.answer c o = .error e) : ∃ id, e = .notFound id := by
  cases c with
  | fetch | list | requeue | insert d => cases refused
  | find id =>
    simp only [TaskBook.answer] at refused
    split at refused <;> cases refused
    exact ⟨id, rfl⟩
  | set id u =>
    simp only [TaskBook.answer] at refused
    split at refused <;> cases refused
    exact ⟨id, rfl⟩

end TaskBook

namespace FileStore

variable {s : FileStore} {t t' : FileTree} {b b' : TaskBook} {c : StoreCall} {o : Occasion}

theorem run_perform_refused (loaded : s.load.run t = (.ok b, t))
    (refused : b.answer c o = .error e) : (s.perform c o).run t = (.error e, t) := by
  rw [perform, FileProgram.run_bind, loaded]
  simp only [refused]
  rfl

theorem run_perform_unchanged (loaded : s.load.run t = (.ok b, t))
    (answered : b.answer c o = .ok (r, none)) : (s.perform c o).run t = (.ok r, t) := by
  rw [perform, FileProgram.run_bind, loaded]
  simp only [answered]
  rfl

theorem run_perform_changed (loaded : s.load.run t = (.ok b, t))
    (answered : b.answer c o = .ok (r, some b')) (saved : (s.save b').run t = (.ok (), t')) :
    (s.perform c o).run t = (.ok r, t') := by
  rw [perform, FileProgram.run_bind, loaded]
  simp only [answered]
  rw [FileProgram.run_bind, saved]
  rfl

end FileStore

/-- What happens to a store: a call, or that its file is opened anew. -/
inductive StoreStep where
  | call (c : StoreCall) (o : Occasion)
  | reopen

def StoreStep.Restored : StoreStep → Prop
  | call c _ => c.Restored
  | reopen => True

/-- The reply to a call. Opening a file anew is answered by nothing. -/
abbrev StepReply : Type := Option (Except StoreError StoreReply)

/-- A step of a store in memory. -/
def TaskBook.step (b : TaskBook) : StoreStep → StepReply × TaskBook
  | .call c o => (some (b.perform c o).1, (b.perform c o).2)
  | .reopen => (none, b)

/-- A step of a store on a file. -/
def FileStore.step (s : FileStore) (t : FileTree) : StoreStep → StepReply × FileStore × FileTree
  | .call c o => (some ((s.perform c o).run t).1, s, ((s.perform c o).run t).2)
  | .reopen => (none, ⟨s.path⟩, t)

/-- Two stores taken through the same steps, with what each step leaves of both. -/
def lockstep (b : TaskBook) (s : FileStore) (t : FileTree) :
    List StoreStep → List ((StepReply × TaskBook) × StepReply × FileStore × FileTree)
  | [] => []
  | step :: steps =>
    (b.step step, s.step t step) ::
      lockstep (b.step step).2 (s.step t step).2.1 (s.step t step).2.2 steps

/-- The file holds the book that is kept in memory, and can be replaced. -/
structure FileStore.Mirrors (s : FileStore) (t : FileTree) (b : TaskBook) : Prop where
  holds : s.Holds t b
  usable : s.file.Usable t
  restored : b.Restored

variable {b b' : TaskBook} {s : FileStore} {t : FileTree} {c : StoreCall} {o : Occasion}

theorem FileStore.Mirrors.call (h : s.Mirrors t b) (new : c.Restored) :
    ((s.perform c o).run t).1 = (b.perform c o).1 ∧
      s.Mirrors ((s.perform c o).run t).2 (b.perform c o).2 := by
  have loaded := h.holds.load
  cases answered : b.answer c o with
  | error e =>
    rw [FileStore.run_perform_refused loaded answered, TaskBook.perform, answered]
    exact ⟨rfl, h⟩
  | ok answer =>
    obtain ⟨r, changed⟩ := answer
    cases changed with
    | none =>
      rw [FileStore.run_perform_unchanged loaded answered, TaskBook.perform, answered]
      exact ⟨rfl, h⟩
    | some b' =>
      have restored := h.restored.answer new answered
      obtain ⟨t', saved, -, holds, usable⟩ := FileStore.run_save h.usable restored
      rw [FileStore.run_perform_changed loaded answered saved, TaskBook.perform, answered]
      exact ⟨rfl, holds, usable, restored⟩

theorem FileStore.Mirrors.step (h : s.Mirrors t b) {step : StoreStep} (new : step.Restored) :
    (s.step t step).1 = (b.step step).1 ∧
      (s.step t step).2.1.Mirrors (s.step t step).2.2 (b.step step).2 := by
  cases step with
  | call c o =>
    obtain ⟨same, mirrors⟩ := h.call new
    exact ⟨congrArg some same, mirrors⟩
  | reopen => exact ⟨rfl, h⟩

theorem TaskBook.notFound_of_step {step : StoreStep} (refused : (b.step step).1 = some (.error e)) :
    ∃ id, e = .notFound id := by
  cases step with
  | reopen => cases refused
  | call c o =>
    have refused := Option.some.inj refused
    unfold perform at refused
    split at refused
    · cases refused
    · rename_i answered
      cases refused
      exact notFound_of_answer answered

/-- Both stores give the same replies, of which the refusals are all for an unknown id, and after
each step the file is loaded as the book in memory. -/
theorem lockstep_agrees {steps : List StoreStep} (start : s.Holds t b) (usable : s.file.Usable t)
    (restored : b.Restored) (new : ∀ step ∈ steps, step.Restored) :
    ∀ memory file, (memory, file) ∈ lockstep b s t steps →
      file.1 = memory.1 ∧ (∀ e, memory.1 = some (.error e) → ∃ id, e = .notFound id) ∧
        file.2.1.load.run file.2.2 = (.ok memory.2, file.2.2) := by
  -- What is assumed of the start is what every step keeps.
  have mirrors : s.Mirrors t b := ⟨start, usable, restored⟩
  clear start usable restored
  induction steps generalizing b s t with
  | nil =>
    intro memory file member
    cases member
  | cons step steps ih =>
    obtain ⟨same, mirrors'⟩ := mirrors.step (new step List.mem_cons_self)
    intro memory file member
    rcases List.mem_cons.1 member with first | later
    · cases first
      exact ⟨same, fun _ => TaskBook.notFound_of_step, mirrors'.holds.load⟩
    · exact ih (fun st hs => new st (List.mem_cons_of_mem _ hs)) mirrors' memory file later

namespace FileStore

def sampleUpdate : TaskUpdate :=
  ⟨.inProgress, none, some ⟨some "0123abc", some ⟨some 3, some ⟨0x3FE0000000000000⟩, none, none⟩⟩⟩

/-- A task is added, found through another handle, worked on and put back, and one is asked for that
does not exist. -/
def sampleSteps : List StoreStep :=
  let o : Occasion := ⟨⟨⟨2024, 2, 29, by decide⟩, 3600, 500, by decide⟩, "t-1"⟩
  [.call (.insert ⟨"Fix login", none, some "", none, none⟩) o, .reopen, .call .fetch o,
    .call (.set "t-1" sampleUpdate) o, .call .requeue o, .reopen, .call (.find "t-2") o,
    .call .list o]

theorem restored_sampleUpdate : sampleUpdate.Restored := by
  intro r hr m hm x hx
  cases hr
  cases hm
  cases hx
  decide +kernel

theorem restored_sampleSteps : ∀ step ∈ sampleSteps, step.Restored := by
  simp [sampleSteps, StoreStep.Restored, StoreCall.Restored, restored_sampleUpdate]

theorem holds_emptyTree : tasksFile.Holds .empty .empty := .inl ⟨by rfl, rfl⟩

theorem usable_emptyTree : tasksFile.file.Usable .empty := usable_tasksFile nofun nofun

theorem lockstep_agrees_sampleSteps :
    tasksFile.Holds .empty .empty ∧ tasksFile.file.Usable .empty ∧ TaskBook.empty.Restored ∧
      (∀ step ∈ sampleSteps, step.Restored) ∧
      ∀ memory file, (memory, file) ∈ lockstep .empty tasksFile .empty sampleSteps →
        file.1 = memory.1 ∧ (∀ e, memory.1 = some (.error e) → ∃ id, e = .notFound id) ∧
          file.2.1.load.run file.2.2 = (.ok memory.2, file.2.2) :=
  ⟨holds_emptyTree, usable_emptyTree, TaskBook.restored_empty, restored_sampleSteps,
    lockstep_agrees holds_emptyTree usable_emptyTree TaskBook.restored_empty restored_sampleSteps⟩

end FileStore

end Foreman

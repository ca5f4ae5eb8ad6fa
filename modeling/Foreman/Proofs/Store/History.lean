import Foreman.Proofs.Task.Book
import Foreman.Store.Basic

namespace Foreman

/-- What is settled about a task when it is made. -/
structure TaskOrigin where
  id : String
  title : String
  description : Option String
  area : Option String
  created : Instant
deriving DecidableEq

namespace Task

def origin (t : Task) : TaskOrigin := ⟨t.id, t.title, t.description, t.area, t.created⟩

/-- The time of completion is there exactly while the task is done or cancelled. -/
def Stamped (t : Task) : Prop := t.completed.isSome ↔ t.status = .done ∨ t.status = .cancelled

variable {t : Task}

@[simp] theorem origin_update (t : Task) (u : TaskUpdate) (now : Instant) :
    (t.update u now).origin = t.origin := rfl

@[simp] theorem origin_requeue (t : Task) : t.requeue.origin = t.origin := by
  unfold requeue
  split <;> rfl

theorem stamped_update (t : Task) (u : TaskUpdate) (now : Instant) : (t.update u now).Stamped := by
  unfold Stamped update
  cases u.status <;> simp [Status.isTerminal]

/-- A task in progress has no time of completion, so that none is left when it goes back. -/
theorem Stamped.requeue (h : t.Stamped) : t.requeue.Stamped := by
  unfold Task.requeue
  split
  · rename_i progress
    have unset : t.completed.isSome = false := by simpa [Stamped, progress] using h
    simp [Stamped, unset]
  · exact h

theorem stamped_ofDraft (unfinished : d.status ∈ [none, some .queued, some .backlog])
    (id : String) (now : Instant) : (ofDraft d id now).Stamped := by
  simp only [List.mem_cons, List.not_mem_nil, or_false] at unfinished
  rcases unfinished with h | h | h <;> simp [Stamped, ofDraft, h]

end Task

/-- Whether a call is one that callers make: a task is added to the queue or the backlog, under an
id that no task has. -/
def StoreCall.Proper (b : TaskBook) (o : Occasion) : StoreCall → Prop
  | insert d => d.status ∈ [none, some .queued, some .backlog] ∧ ∀ t ∈ b.tasks, t.id ≠ o.freshId
  | _ => True

namespace TaskBook

/-- What calls, the first one first, make of a book. A store that cannot read or write its file
fails, and leaves the book as it was. -/
inductive Becomes (b : TaskBook) : List StoreCall → TaskBook → Prop where
  | refl : Becomes b [] b
  | call (h : Becomes b calls b') (proper : c.Proper b' o) :
      Becomes b (calls ++ [c]) (b'.perform c o).2
  | failed (h : Becomes b calls b') (c : StoreCall) : Becomes b (calls ++ [c]) b'

variable {b b' : TaskBook} {c : StoreCall} {o : Occasion} {id : String}

def origins (b : TaskBook) : List TaskOrigin := b.tasks.map Task.origin

def Stamped (b : TaskBook) : Prop := ∀ t ∈ b.tasks, t.Stamped

/-- All that a call can make of a book. -/
theorem perform_cases (b : TaskBook) (c : StoreCall) (o : Occasion) :
    (b.perform c o).2 = b ∨
      (∃ id u, c = .set id u ∧ b.update? id u o.now = some (b.perform c o).2) ∨
      (c = .requeue ∧ (b.perform c o).2 = b.requeueStranded) ∨
      ∃ d, c = .insert d ∧ (b.perform c o).2 = b.insert (Task.ofDraft d o.freshId o.now) := by
  cases c with
  | fetch | list => exact .inl rfl
  | find id =>
    refine .inl ?_
    simp only [perform, answer]
    cases b.find? id <;> rfl
  | set id u =>
    cases changed : b.update? id u o.now with
    | none => exact .inl (by simp [perform, answer, changed])
    | some b' => exact .inr (.inl ⟨id, u, rfl, by simp [perform, answer, changed]⟩)
  | requeue =>
    by_cases some : 0 < b.strandedCount
    · exact .inr (.inr (.inl ⟨rfl, by simp [perform, answer, some]⟩))
    · exact .inl (by simp [perform, answer, some])
  | insert d => exact .inr (.inr (.inr ⟨d, rfl, rfl⟩))

theorem origins_update? (h : b.update? id u now = some b') : b'.origins = b.origins := by
  obtain ⟨ts, hs, rfl⟩ := Option.map_eq_some_iff.1 h
  exact map_changeFirst? (f := (·.update u now)) (fun _ => rfl) hs

theorem origins_requeueStranded (b : TaskBook) : b.requeueStranded.origins = b.origins := by
  simp [origins, requeueStranded]

theorem origins_insert (b : TaskBook) (t : Task) :
    (b.insert t).origins = b.origins ++ [t.origin] := by
  simp [origins, insert]

theorem origins_perform (b : TaskBook) (c : StoreCall) (o : Occasion) :
    b.origins <+: (b.perform c o).2.origins := by
  rcases b.perform_cases c o with same | ⟨id, u, -, changed⟩ | ⟨-, put⟩ | ⟨d, -, added⟩
  · simp only [same, List.prefix_rfl]
  · simp only [origins_update? changed, List.prefix_rfl]
  · simp only [put, origins_requeueStranded, List.prefix_rfl]
  · rw [added, origins_insert]
    exact List.prefix_append ..

theorem Stamped.perform (h : b.Stamped) (proper : c.Proper b o) : (b.perform c o).2.Stamped := by
  intro t ht
  rcases b.perform_cases c o with same | ⟨id, u, -, changed⟩ | ⟨-, put⟩ | ⟨d, rfl, added⟩
  · exact h t (same ▸ ht)
  · obtain ⟨ts, hs, hb⟩ := Option.map_eq_some_iff.1 changed
    rw [← hb] at ht
    rcases mem_of_changeFirst? hs ht with old | ⟨t₀, -, -, rfl⟩
    · exact h t old
    · exact t₀.stamped_update u o.now
  · rw [put] at ht
    obtain ⟨t₀, old, rfl⟩ := List.mem_map.1 ht
    exact (h t₀ old).requeue
  · rw [added] at ht
    rcases List.mem_append.1 ht with old | new
    · exact h t old
    · rw [List.mem_singleton.1 new]
      exact Task.stamped_ofDraft proper.1 o.freshId o.now

theorem distinct_iff : b.Distinct ↔ (b.origins.map (·.id)).Nodup := by
  simp [Distinct, keys, origins, Function.comp_def, Task.origin]

theorem Distinct.perform (h : b.Distinct) (proper : c.Proper b o) :
    (b.perform c o).2.Distinct := by
  rw [distinct_iff] at h ⊢
  rcases b.perform_cases c o with same | ⟨id, u, -, changed⟩ | ⟨-, put⟩ | ⟨d, rfl, added⟩
  · rwa [same]
  · rwa [origins_update? changed]
  · rwa [put, origins_requeueStranded]
  · rw [added, origins_insert, List.map_append, List.nodup_append]
    refine ⟨h, List.pairwise_singleton _ _, ?_⟩
    intro old hold new hnew
    obtain ⟨origin, horigin, rfl⟩ := List.mem_map.1 hold
    obtain ⟨t, ht, rfl⟩ := List.mem_map.1 horigin
    rw [List.mem_singleton.1 hnew]
    exact proper.2 t ht

/-- A write finds the task that it names and no other, or nothing. -/
theorem Distinct.perform_set (h : b.Distinct) (id : String) (u : TaskUpdate) (o : Occasion) :
    b.perform (.set id u) o = (.error (.notFound id), b) ∧ (∀ t ∈ b.tasks, t.id ≠ id) ∨
      ∃ front t back, b.tasks = front ++ t :: back ∧ t.id = id ∧ (∀ x ∈ front ++ back, x.id ≠ id) ∧
        b.perform (.set id u) o = (.ok .written, ⟨front ++ t.update u o.now :: back⟩) := by
  cases changed : changeFirst? id (·.update u o.now) b.tasks with
  | none =>
    refine .inl ⟨?_, changeFirst?_eq_none.1 changed⟩
    simp [TaskBook.perform, answer, update?, changed]
  | some ts =>
    obtain ⟨front, t, back, split, rfl, -, rfl⟩ := changeFirst?_eq_some.1 changed
    refine .inr ⟨front, t, back, split, rfl, h.ne_of_split split, ?_⟩
    simp [TaskBook.perform, answer, update?, changed]

theorem perform_refused (refused : (b.perform c o).1 = .error e) : (b.perform c o).2 = b := by
  cases answered : b.answer c o with
  | ok answer => simp [perform, answered] at refused
  | error e => simp [perform, answered]

/-- How a book stands to one that calls have made of it, and what the next call makes of that. -/
structure Faithful (b b' : TaskBook) : Prop where
  distinct : b'.Distinct
  stamped : b'.Stamped
  /-- Every task of before is in its place, made as it was. -/
  origins : b.origins <+: b'.origins
  inserts : ∀ d o,
    (b'.perform (.insert d) o).2.tasks = b'.tasks ++ [Task.ofDraft d o.freshId o.now]
  sets : ∀ id u o,
    b'.perform (.set id u) o = (.error (.notFound id), b') ∧ (∀ t ∈ b'.tasks, t.id ≠ id) ∨
      ∃ front t back, b'.tasks = front ++ t :: back ∧ t.id = id ∧
        (∀ x ∈ front ++ back, x.id ≠ id) ∧
          b'.perform (.set id u) o = (.ok .written, ⟨front ++ t.update u o.now :: back⟩)
  refuses : ∀ c o e, (b'.perform c o).1 = .error e → (b'.perform c o).2 = b'

/-- What every call keeps, all of them keep. -/
theorem Becomes.keeps {P : TaskBook → Prop}
    (keep : ∀ {b c o}, P b → StoreCall.Proper b o c → P (b.perform c o).2)
    (h : Becomes b calls b') (start : P b) : P b' := by
  induction h with
  | refl => exact start
  | call _ proper ih => exact keep ih proper
  | failed _ _ ih => exact ih

/-- A book with distinct ids in which completed tasks are marked as such stays one, and nothing of
what it holds gets lost. -/
theorem Becomes.faithful_history (h : Becomes b calls b') (distinct : b.Distinct)
    (stamped : b.Stamped) : Faithful b b' where
  distinct := h.keeps .perform distinct
  stamped := h.keeps .perform stamped
  origins := by
    refine h.keeps (P := fun b' => b.origins <+: b'.origins) (fun grown _ => ?_) List.prefix_rfl
    exact grown.trans (origins_perform ..)
  inserts _ _ := rfl
  sets := Distinct.perform_set (h.keeps .perform distinct)
  refuses _ _ _ := perform_refused

def morning : Instant := ⟨⟨2025, 3, 10, by decide⟩, 28800, 0, by decide⟩

def evening : Instant := ⟨⟨2025, 3, 10, by decide⟩, 64800, 0, by decide⟩

def webTask : Task := .ofDraft ⟨"Fix login", none, none, some "web", none⟩ "t-1" morning

def logoutTask : Task := .ofDraft ⟨"Add logout", none, none, none, none⟩ "t-2" morning

def reportDraft : TaskDraft := ⟨"Report", none, none, none, some .backlog⟩

/-- A task in progress, and one that is done. -/
def startedBook : TaskBook where
  tasks := [{ webTask with status := .inProgress }, logoutTask.update (.ofStatus .done) morning]

/-- What is asked of that book in the evening: the second write names no task, and the first
requeueing does not get to the file. -/
def eveningCalls : List StoreCall :=
  [.insert reportDraft, .set "t-1" (.ofStatus .cancelled), .set "t-9" (.ofStatus .stuck), .requeue,
    .set "t-2" (.ofStatus .inProgress), .requeue]

def eveningBook : TaskBook where
  tasks := [{ webTask with status := .cancelled, completed := some evening }, logoutTask,
    Task.ofDraft reportDraft "t-3" evening]

theorem becomes_eveningBook : Becomes startedBook eveningCalls eveningBook := by
  have added : Becomes startedBook _ _ :=
    .call (c := .insert reportDraft) (o := ⟨evening, "t-3"⟩) .refl ⟨by decide, by decide⟩
  have cancelled := added.call (c := .set "t-1" (.ofStatus .cancelled)) (o := ⟨evening, ""⟩) trivial
  have missed := cancelled.call (c := .set "t-9" (.ofStatus .stuck)) (o := ⟨evening, ""⟩) trivial
  have failed := missed.failed .requeue
  have resumed := failed.call (c := .set "t-2" (.ofStatus .inProgress)) (o := ⟨evening, ""⟩) trivial
  exact resumed.call (c := .requeue) (o := ⟨evening, ""⟩) trivial

theorem distinct_startedBook : startedBook.Distinct := distinct_iff.2 (by decide)

theorem stamped_startedBook : startedBook.Stamped := by
  simp [Stamped, startedBook, webTask, logoutTask, Task.Stamped, Task.ofDraft, Task.update,
    TaskUpdate.ofStatus, Task.Status.isTerminal]

theorem faithful_evening :
    Becomes startedBook eveningCalls eveningBook ∧ startedBook.Distinct ∧ startedBook.Stamped ∧
      Faithful startedBook eveningBook :=
  ⟨becomes_eveningBook, distinct_startedBook, stamped_startedBook,
    becomes_eveningBook.faithful_history distinct_startedBook stamped_startedBook⟩

end TaskBook

end Foreman

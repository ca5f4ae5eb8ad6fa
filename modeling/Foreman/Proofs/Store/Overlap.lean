import Foreman.Proofs.Store.Concurrency

namespace Foreman

variable {s : FileStore} {t : FileTree} {h : Handle} {b : TaskBook}

namespace Handle

/-- A handle that adds tasks and does nothing else. -/
def Inserting (h : Handle) : Prop := ∀ call ∈ h.calls, ∃ draft, call.1 = .insert draft

theorem turn_inserting (mirrors : s.Mirrors t b) (inserting : h.Inserting) :
    ∃ b', s.Mirrors (h.turn s t).2 b' ∧ (h.turn s t).1.Inserting ∧
      b'.tasks.length + h.replies.length = b.tasks.length + (h.turn s t).1.replies.length := by
  obtain ⟨calls, pending, replies⟩ := h
  cases calls with
  | nil => exact ⟨b, mirrors, inserting, rfl⟩
  | cons call calls =>
    obtain ⟨c, o⟩ := call
    obtain ⟨draft, rfl⟩ := inserting _ List.mem_cons_self
    have later : ∀ call ∈ calls, ∃ draft, call.1 = .insert draft :=
      fun call member => inserting call (List.mem_cons_of_mem _ member)
    obtain ⟨-, mirrors'⟩ := mirrors.call (c := .insert draft) (o := o) trivial
    refine ⟨_, mirrors', later, ?_⟩
    simp only [TaskBook.perform, TaskBook.answer, TaskBook.insert, Option.getD_some, turn, reply,
      List.length_append, List.length_singleton]
    omega

end Handle

namespace Shared

/-- Of two changes to one book the later save leaves only its own, though both are reported as
made. -/
theorem run_overlap {ι : Type} [DecidableEq ι] {w : Shared ι} {i j : ι} (ne : i ≠ j)
    (one : w.handles i = ⟨(c₁, o₁) :: calls₁, none, replies₁⟩)
    (other : w.handles j = ⟨(c₂, o₂) :: calls₂, none, replies₂⟩)
    (loaded : s.load.run w.tree = (.ok b, w.tree)) (usable : s.file.Usable w.tree)
    (answered₁ : b.answer c₁ o₁ = .ok (r₁, some changed₁)) (restored₁ : changed₁.Restored)
    (answered₂ : b.answer c₂ o₂ = .ok (r₂, some changed₂)) (restored₂ : changed₂.Restored) :
    (w.run s [i, j, i, j]).handles i = ⟨calls₁, none, replies₁ ++ [.ok r₁]⟩ ∧
      (w.run s [i, j, i, j]).handles j = ⟨calls₂, none, replies₂ ++ [.ok r₂]⟩ ∧
      s.Mirrors (w.run s [i, j, i, j]).tree changed₂ := by
  obtain ⟨t₁, saved₁, -, -, usable₁⟩ := FileStore.run_save usable restored₁
  obtain ⟨t₂, saved₂, -, holds, usable₂⟩ := FileStore.run_save usable₁ restored₂
  have run : w.run s [i, j, i, j] =
      ⟨Function.update (Function.update w.handles i ⟨calls₁, none, replies₁ ++ [.ok r₁]⟩) j
        ⟨calls₂, none, replies₂ ++ [.ok r₂]⟩, t₂⟩ := by
    simp [Shared.run, step, put, ne, ne.symm, one, other, Handle.step_of_changed loaded answered₁,
      Handle.step_of_changed loaded answered₂, Handle.step_of_saved saved₁,
      Handle.step_of_saved saved₂]
    rw [Function.update_comm ne, Function.update_idem, Function.update_comm ne.symm,
      Function.update_idem]
  rw [run]
  refine ⟨?_, ?_, holds, usable₂, restored₂⟩
  · simp [ne]
  · simp

def replied (w : Shared Bool) : Nat :=
  (w.handles true).replies.length + (w.handles false).replies.length

theorem turn_inserting {w : Shared Bool} (mirrors : s.Mirrors w.tree b)
    (inserting : ∀ i, (w.handles i).Inserting) (i : Bool) :
    ∃ b', s.Mirrors (w.turn s i).tree b' ∧ (∀ j, ((w.turn s i).handles j).Inserting) ∧
      b'.tasks.length + w.replied = b.tasks.length + (w.turn s i).replied := by
  obtain ⟨b', mirrors', inserting', count⟩ := Handle.turn_inserting mirrors (inserting i)
  refine ⟨b', mirrors', ?_, ?_⟩
  · intro j
    by_cases eq : j = i
    · rw [eq, turn, put_handles_self]
      exact inserting'
    · rw [turn, put_handles_of_ne eq]
      exact inserting j
  · cases i with
    | true =>
      rw [turn, replied, replied, put_handles_self, put_handles_of_ne (by decide)]
      omega
    | false =>
      rw [turn, replied, replied, put_handles_self, put_handles_of_ne (by decide)]
      omega

/-- Whole insertions, in whichever order, are all in the book. -/
theorem inOrder_inserting {w : Shared Bool} (mirrors : s.Mirrors w.tree b)
    (inserting : ∀ i, (w.handles i).Inserting) (order : List Bool) :
    ∃ b', s.Mirrors (w.inOrder s order).tree b' ∧
      b'.tasks.length + w.replied = b.tasks.length + (w.inOrder s order).replied := by
  induction order generalizing w b with
  | nil => exact ⟨b, mirrors, rfl⟩
  | cons i order ih =>
    obtain ⟨b₁, mirrors₁, inserting₁, count₁⟩ := turn_inserting mirrors inserting i
    obtain ⟨b₂, mirrors₂, count₂⟩ := ih mirrors₁ inserting₁
    refine ⟨b₂, mirrors₂, ?_⟩
    change _ = _ + ((w.turn s i).inOrder s order).replied
    omega

def twoInserts (d₁ d₂ : TaskDraft) (o₁ o₂ : Occasion) (t : FileTree) : Shared Bool where
  handles i := if i then .start [(.insert d₁, o₁)] else .start [(.insert d₂, o₂)]
  tree := t

/-- Both load the book before either saves it. -/
def overlap : List Bool := [true, false, true, false]

theorem run_twoInserts (mirrors : s.Mirrors t b) (d₁ d₂ : TaskDraft) (o₁ o₂ : Occasion) :
    ((twoInserts d₁ d₂ o₁ o₂ t).run s overlap).handles true =
        ⟨[], none, [.ok (.task (.ofDraft d₁ o₁.freshId o₁.now))]⟩ ∧
      ((twoInserts d₁ d₂ o₁ o₂ t).run s overlap).handles false =
        ⟨[], none, [.ok (.task (.ofDraft d₂ o₂.freshId o₂.now))]⟩ ∧
      s.Mirrors ((twoInserts d₁ d₂ o₁ o₂ t).run s overlap).tree
        (b.insert (.ofDraft d₂ o₂.freshId o₂.now)) := by
  have answered (d : TaskDraft) (o : Occasion) : b.answer (.insert d) o =
      .ok (.task (.ofDraft d o.freshId o.now), some (b.insert (.ofDraft d o.freshId o.now))) := rfl
  have restored (d : TaskDraft) (o : Occasion) : (b.insert (.ofDraft d o.freshId o.now)).Restored :=
    mirrors.restored.answer (c := .insert d) trivial (answered d o)
  have one : (twoInserts d₁ d₂ o₁ o₂ t).handles true = ⟨[(.insert d₁, o₁)], none, []⟩ := rfl
  have other : (twoInserts d₁ d₂ o₁ o₂ t).handles false = ⟨[(.insert d₂, o₂)], none, []⟩ := rfl
  exact run_overlap (by decide) one other mirrors.holds.load mirrors.usable (answered d₁ o₁)
    (restored d₁ o₁) (answered d₂ o₂) (restored d₂ o₂)

/-- Two insertions that overlap leave what no order of them leaves: one task is lost. -/
theorem not_alike_of_overlap (mirrors : s.Mirrors t b) (d₁ d₂ : TaskDraft) (o₁ o₂ : Occasion)
    (order : List Bool) :
    ¬ Alike s ((twoInserts d₁ d₂ o₁ o₂ t).run s overlap)
      ((twoInserts d₁ d₂ o₁ o₂ t).inOrder s order) := by
  intro alike
  obtain ⟨first, second, left⟩ := run_twoInserts mirrors d₁ d₂ o₁ o₂
  have inserting : ∀ i, ((twoInserts d₁ d₂ o₁ o₂ t).handles i).Inserting := by
    intro i call member
    cases i with
    | true => exact ⟨d₁, by rw [List.mem_singleton.1 member]⟩
    | false => exact ⟨d₂, by rw [List.mem_singleton.1 member]⟩
  obtain ⟨b', kept, count⟩ := inOrder_inserting mirrors inserting order
  have same : b.insert (.ofDraft d₂ o₂.freshId o₂.now) = b' := by
    have book := alike.book
    rw [left.holds.load, kept.holds.load] at book
    exact Except.ok.inj book
  have both : ((twoInserts d₁ d₂ o₁ o₂ t).inOrder s order).replied = 2 := by
    rw [replied, ← alike.replies true, ← alike.replies false, first, second]
    rfl
  have none : (twoInserts d₁ d₂ o₁ o₂ t).replied = 0 := rfl
  rw [both, none, ← same] at count
  simp [TaskBook.insert] at count

open FileStore (tasksFile loginDraft loginOccasion)

def reportDraft : TaskDraft := ⟨"Write report", none, none, none, none⟩

def reportOccasion : Occasion := ⟨⟨⟨2024, 5, 7, by decide⟩, 3601, 0, by decide⟩, "t-2"⟩

def reportTask : Task := .ofDraft reportDraft reportOccasion.freshId reportOccasion.now

/-- Both tasks are reported as inserted, and one is in the book. -/
theorem not_alike_of_overlap_emptyTree :
    let w := twoInserts loginDraft reportDraft loginOccasion reportOccasion .empty
    w.Resting ∧ (w.run tasksFile overlap).Resting ∧
      ((w.run tasksFile overlap).handles true).replies = [.ok (.task loginTask)] ∧
      ((w.run tasksFile overlap).handles false).replies = [.ok (.task reportTask)] ∧
      (tasksFile.load.run (w.run tasksFile overlap).tree).1 = .ok ⟨[reportTask]⟩ ∧
      ∀ order, ¬ Alike tasksFile (w.run tasksFile overlap) (w.inOrder tasksFile order) := by
  intro w
  have mirrors : tasksFile.Mirrors .empty .empty :=
    ⟨FileStore.holds_emptyTree, FileStore.usable_emptyTree, TaskBook.restored_empty⟩
  obtain ⟨first, second, left⟩ :=
    run_twoInserts mirrors loginDraft reportDraft loginOccasion reportOccasion
  refine ⟨?_, ?_, ?_, ?_, congrArg Prod.fst left.holds.load, not_alike_of_overlap mirrors _ _ _ _⟩
  · intro i
    cases i <;> rfl
  · intro i
    cases i with
    | true => exact congrArg Handle.pending first
    | false => exact congrArg Handle.pending second
  · exact congrArg Handle.replies first
  · exact congrArg Handle.replies second

end Shared

end Foreman

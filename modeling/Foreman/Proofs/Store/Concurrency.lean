import Mathlib.Data.List.Induction
import Mathlib.Logic.Function.Basic
import Foreman.Proofs.Store.Agreement
import Foreman.Proofs.Store.Interruption

/-!
# Several handles on one store

A call loads the book and, where it changes it, saves it again. A handle makes its calls one after
another, but nothing keeps it from loading between another's load and save, and of two changes to
one book the later save leaves only its own. While no two handles have a change to save, they do
what they would do one call at a time.
-/

namespace Foreman

/-- A user of a store. -/
structure Handle where
  calls : List (StoreCall × Occasion)
  /-- The reply to the call that is under way, and the book it has still to save. -/
  pending : Option (StoreReply × TaskBook)
  replies : List (Except StoreError StoreReply)

namespace Handle

def start (calls : List (StoreCall × Occasion)) : Handle := ⟨calls, none, []⟩

def reply (h : Handle) (r : Except StoreError StoreReply) : Handle :=
  { h with pending := none, replies := h.replies ++ [r] }

/-- Loads the book for a call. If the call changes it, the change is still to be saved. -/
def load (s : FileStore) (h : Handle) (c : StoreCall) (o : Occasion) (t : FileTree) :
    Handle × FileTree :=
  match s.load.run t with
  | (.error e, t) => (h.reply (.error (.other e)), t)
  | (.ok b, t) =>
    match b.answer c o with
    | .error e => (h.reply (.error e), t)
    | .ok (r, none) => (h.reply (.ok r), t)
    | .ok (r, some changed) => ({ h with pending := some (r, changed) }, t)

def save (s : FileStore) (h : Handle) (r : StoreReply) (changed : TaskBook) (t : FileTree) :
    Handle × FileTree :=
  match (s.save changed).run t with
  | (.error e, t) => (h.reply (.error (.other e)), t)
  | (.ok (), t) => (h.reply (.ok r), t)

/-- Goes on with the call that is under way, or begins the next one. -/
def step (s : FileStore) (h : Handle) (t : FileTree) : Handle × FileTree :=
  match h.pending, h.calls with
  | some (r, changed), _ => h.save s r changed t
  | none, [] => (h, t)
  | none, (c, o) :: calls => { h with calls }.load s c o t

def turn (s : FileStore) (h : Handle) (t : FileTree) : Handle × FileTree :=
  match h.calls with
  | [] => (h, t)
  | (c, o) :: calls => ({ h with calls }.reply ((s.perform c o).run t).1, ((s.perform c o).run t).2)

/-- A handle may have loaded the book for a call that another one, otherwise like it, has yet to
make. -/
inductive Ahead (s : FileStore) (t : FileTree) : Handle → Handle → Prop
  | level (resting : h.pending = none) : Ahead s t h h
  | half {calls : List (StoreCall × Occasion)} {replies : List (Except StoreError StoreReply)}
      (loaded : s.load.run t = (.ok b, t)) (answered : b.answer c o = .ok (r, some changed)) :
      Ahead s t ⟨calls, some (r, changed), replies⟩ ⟨(c, o) :: calls, none, replies⟩

end Handle

/-- The handles on a store, and the tree with its file. -/
structure Shared (ι : Type) where
  handles : ι → Handle
  tree : FileTree

namespace Shared

variable {ι : Type} [DecidableEq ι]

def put (w : Shared ι) (i : ι) (next : Handle × FileTree) : Shared ι :=
  ⟨Function.update w.handles i next.1, next.2⟩

def step (s : FileStore) (w : Shared ι) (i : ι) : Shared ι := w.put i ((w.handles i).step s w.tree)

def run (s : FileStore) (w : Shared ι) (schedule : List ι) : Shared ι := schedule.foldl (step s) w

def turn (s : FileStore) (w : Shared ι) (i : ι) : Shared ι := w.put i ((w.handles i).turn s w.tree)

/-- Makes one call after another, each from beginning to end. -/
def inOrder (s : FileStore) (w : Shared ι) (order : List ι) : Shared ι := order.foldl (turn s) w

def Resting (w : Shared ι) : Prop := ∀ i, (w.handles i).pending = none

/-- At most one handle has a change to save. -/
def Apart (w : Shared ι) : Prop :=
  ∀ i j, (w.handles i).pending ≠ none → (w.handles j).pending ≠ none → i = j

/-- The handles got the same replies, and the book is the same. -/
structure Alike (s : FileStore) (w w' : Shared ι) : Prop where
  replies : ∀ i, (w.handles i).replies = (w'.handles i).replies
  book : (s.load.run w.tree).1 = (s.load.run w'.tree).1

end Shared

variable {s : FileStore} {t : FileTree} {h h' : Handle} {b changed : TaskBook} {r : StoreReply}
  {c : StoreCall} {o : Occasion}

theorem FileStore.run_load_snd (s : FileStore) (t : FileTree) : (s.load.run t).2 = t :=
  (FileStore.eq_of_load_ends (FileProgram.ends_run s.load t)).1

theorem FileStore.run_load_eq (result : (s.load.run t).1 = loaded) :
    s.load.run t = (loaded, t) :=
  Prod.ext result (s.run_load_snd t)

theorem FileStore.run_perform_unloaded (loaded : s.load.run t = (.error e, t)) :
    (s.perform c o).run t = (.error (.other e), t) := by
  rw [perform, FileProgram.run_bind, loaded]
  rfl

namespace Handle

variable {calls : List (StoreCall × Occasion)} {replies : List (Except StoreError StoreReply)}

/-- A handle that never changes the book. -/
structure Reading (h : Handle) : Prop where
  resting : h.pending = none
  idle : ∀ call ∈ h.calls, ∀ b, call.1.Idle b

theorem Reading.step (reading : h.Reading) : (h.step s t).1.Reading := by
  obtain ⟨calls, pending, replies⟩ := h
  obtain ⟨rfl, idle⟩ := reading
  cases calls with
  | nil => exact ⟨rfl, idle⟩
  | cons call calls =>
    obtain ⟨c, o⟩ := call
    have later : ∀ call ∈ calls, ∀ b, call.1.Idle b :=
      fun call member => idle call (List.mem_cons_of_mem _ member)
    simp only [Handle.step, load]
    split
    · exact ⟨rfl, later⟩
    · rename_i b _ _
      split
      · exact ⟨rfl, later⟩
      · exact ⟨rfl, later⟩
      · rename_i changed
        exact (TaskBook.answer_ne_of_idle (idle _ List.mem_cons_self b) changed).elim

theorem step_of_changed (loaded : s.load.run t = (.ok b, t))
    (answered : b.answer c o = .ok (r, some changed)) :
    step s ⟨(c, o) :: calls, none, replies⟩ t = (⟨calls, some (r, changed), replies⟩, t) := by
  simp only [step, load, loaded, answered]

theorem step_of_saved (saved : (s.save changed).run t = (.ok (), t')) :
    step s ⟨calls, some (r, changed), replies⟩ t = (⟨calls, none, replies ++ [.ok r]⟩, t') := by
  simp only [step, save, saved, reply]

theorem step_resting (busy : h.pending ≠ none) : (h.step s t).1.pending = none := by
  unfold step
  split
  · unfold save
    split <;> rfl
  · assumption
  · contradiction

theorem save_eq_turn (loaded : s.load.run t = (.ok b, t))
    (answered : b.answer c o = .ok (r, some changed)) (calls : List (StoreCall × Occasion))
    (replies : List (Except StoreError StoreReply)) :
    save s ⟨calls, some (r, changed), replies⟩ r changed t =
      turn s ⟨(c, o) :: calls, none, replies⟩ t := by
  simp only [save, turn, FileStore.perform, FileProgram.run_bind, loaded, answered]
  cases saved : (s.save changed).run t with
  | mk result t' => cases result <;> rfl

/-- Loading the book makes the call at once, or leaves only a change to be saved. -/
theorem load_eq_turn_or_ahead (s : FileStore) (t : FileTree) (c : StoreCall) (o : Occasion)
    (calls : List (StoreCall × Occasion)) (replies : List (Except StoreError StoreReply)) :
    let next := load s ⟨calls, none, replies⟩ c o t
    let whole : Handle := ⟨(c, o) :: calls, none, replies⟩
    next.2 = t ∧ (next = whole.turn s t ∧ next.1.pending = none ∨ Ahead s t next.1 whole) := by
  cases result : (s.load.run t).1 with
  | error e =>
    have loaded := FileStore.run_load_eq result
    simp [load, turn, reply, loaded, FileStore.run_perform_unloaded loaded]
  | ok b =>
    have loaded := FileStore.run_load_eq result
    cases answered : b.answer c o with
    | error e =>
      simp [load, turn, reply, loaded, answered, FileStore.run_perform_refused loaded answered]
    | ok answer =>
      obtain ⟨r, changed⟩ := answer
      cases changed with
      | none =>
        simp [load, turn, reply, loaded, answered, FileStore.run_perform_unchanged loaded answered]
      | some changed =>
        simp only [load, loaded, answered]
        exact ⟨trivial, .inr (.half loaded answered)⟩

theorem Ahead.eq_of_resting (ahead : Ahead s t h h') (resting : h.pending = none) : h = h' := by
  cases ahead with
  | level => rfl
  | half => cases resting

/-- A step of a handle that may be ahead puts it ahead, or lets the other one make its call. The
tree changes only where a change was to be saved. -/
theorem Ahead.step (ahead : Ahead s t h h') :
    ((h.step s t).2 = t ∧ Ahead s t (h.step s t).1 h') ∨
      (h.step s t = h'.turn s t ∧ (h.step s t).1.pending = none ∧
        (h.pending = none → (h.step s t).2 = t)) := by
  cases ahead with
  | level resting =>
    obtain ⟨calls, pending, replies⟩ := h
    cases resting
    cases calls with
    | nil => exact .inl ⟨rfl, .level rfl⟩
    | cons call calls =>
      obtain ⟨c, o⟩ := call
      obtain ⟨same, made | ahead⟩ := load_eq_turn_or_ahead s t c o calls replies
      · exact .inr ⟨made.1, made.2, fun _ => same⟩
      · exact .inl ⟨same, ahead⟩
  | half loaded answered =>
    have made := save_eq_turn loaded answered
    refine .inr ⟨made _ _, ?_, nofun⟩
    exact congrArg (fun next => next.1.pending) (made _ _)

end Handle

namespace Shared

open Handle (Ahead)

variable {ι : Type} [DecidableEq ι] {w w' : Shared ι} {i j : ι} {schedule : List ι}

theorem put_handles_self (w : Shared ι) (i : ι) (next : Handle × FileTree) :
    (w.put i next).handles i = next.1 := by
  simp [put]

theorem put_handles_of_ne (ne : j ≠ i) (next : Handle × FileTree) :
    (w.put i next).handles j = w.handles j := by
  simp [put, ne]

/-- Some handles may be ahead of where they are after whole calls. -/
structure Leads (s : FileStore) (w w' : Shared ι) : Prop where
  tree : w.tree = w'.tree
  handles : ∀ i, Ahead s w.tree (w.handles i) (w'.handles i)

omit [DecidableEq ι] in
theorem Leads.refl (resting : w.Resting) : Leads s w w where
  tree := rfl
  handles i := .level (resting i)

theorem Leads.step (leads : Leads s w w') (apart : w.Apart) (i : ι) :
    Leads s (w.step s i) w' ∨ Leads s (w.step s i) (w'.turn s i) := by
  have others {j : ι} (ne : j ≠ i) : (w.step s i).handles j = w.handles j :=
    put_handles_of_ne ne _
  have own : (w.step s i).handles i = ((w.handles i).step s w.tree).1 := put_handles_self w i _
  rcases (leads.handles i).step with ⟨same, ahead⟩ | ⟨made, resting, quiet⟩
  · refine .inl ⟨same.trans leads.tree, ?_⟩
    intro j
    change Ahead s ((w.handles i).step s w.tree).2 _ _
    rw [same]
    by_cases eq : j = i
    · rw [eq, own]
      exact ahead
    · rw [others eq]
      exact leads.handles j
  · have turned : (w.handles i).step s w.tree = (w'.handles i).turn s w'.tree := by
      rw [made, leads.tree]
    refine .inr ⟨congrArg Prod.snd turned, ?_⟩
    intro j
    by_cases eq : j = i
    · rw [eq, turn, put_handles_self, ← turned, own]
      exact .level resting
    · rw [turn, put_handles_of_ne eq, others eq]
      -- The tree may be another one, but then no other handle has loaded a book from the old one.
      change Ahead s ((w.handles i).step s w.tree).2 _ _
      by_cases was : (w.handles i).pending = none
      · rw [quiet was]
        exact leads.handles j
      · have alone : (w.handles j).pending = none := by
          by_contra busy
          exact eq (apart j i busy was)
        rw [← (leads.handles j).eq_of_resting alone]
        exact .level alone

theorem run_concat (s : FileStore) (w : Shared ι) (schedule : List ι) (i : ι) :
    w.run s (schedule ++ [i]) = (w.run s schedule).step s i := by
  rw [run, List.foldl_append]
  rfl

theorem inOrder_concat (s : FileStore) (w : Shared ι) (order : List ι) (i : ι) :
    w.inOrder s (order ++ [i]) = (w.inOrder s order).turn s i := by
  rw [inOrder, List.foldl_append]
  rfl

theorem run_reading (reading : (w.handles i).Reading) (schedule : List ι) :
    ((w.run s schedule).handles i).Reading := by
  induction schedule using List.reverseRecOn with
  | nil => exact reading
  | append_singleton schedule j ih =>
    rw [run_concat, step]
    by_cases own : i = j
    · subst own
      rw [put_handles_self]
      exact ih.step
    · rw [put_handles_of_ne own]
      exact ih

/-- Beside handles that never change the book, one that does is always apart. -/
theorem run_apart_of_reading (reading : ∀ j, j ≠ i → (w.handles j).Reading)
    (schedule : List ι) : (w.run s schedule).Apart := by
  have only {j : ι} (busy : ((w.run s schedule).handles j).pending ≠ none) : j = i := by
    by_contra ne
    exact busy (run_reading (reading j ne) schedule).resting
  intro j k busy busy'
  rw [only busy, only busy']

theorem run_leads (resting : w.Resting)
    (apart : ∀ before, before <+: schedule → (w.run s before).Apart) :
    ∃ order, Leads s (w.run s schedule) (w.inOrder s order) := by
  induction schedule using List.reverseRecOn with
  | nil => exact ⟨[], .refl resting⟩
  | append_singleton schedule i ih =>
    have front : schedule <+: schedule ++ [i] := List.prefix_append schedule [i]
    obtain ⟨order, leads⟩ := ih fun before h => apart before (h.trans front)
    rw [run_concat]
    -- The last step completes a call, which is then the last in order, or is only half of one.
    rcases leads.step (apart schedule front) i with half | whole
    · exact ⟨order, half⟩
    · refine ⟨order ++ [i], ?_⟩
      rw [inOrder_concat]
      exact whole

omit [DecidableEq ι] in
theorem Leads.eq_of_resting (leads : Leads s w w') (resting : w.Resting) : w = w' := by
  have handles : w.handles = w'.handles := by
    funext i
    exact (leads.handles i).eq_of_resting (resting i)
  cases w
  cases w'
  cases handles
  cases leads.tree
  rfl

/-- While no two handles have a change to save, they leave everything as they do in some order of
whole calls. -/
theorem run_eq_inOrder (resting : w.Resting)
    (apart : ∀ before, before <+: schedule → (w.run s before).Apart)
    (settled : (w.run s schedule).Resting) : ∃ order, w.run s schedule = w.inOrder s order := by
  obtain ⟨order, leads⟩ := run_leads resting apart
  exact ⟨order, leads.eq_of_resting settled⟩

open FileStore (tasksFile loginDraft loginOccasion)

def loginTask : Task := .ofDraft loginDraft loginOccasion.freshId loginOccasion.now

/-- A handle that adds a task, and one that looks while it does. -/
def watchedInsert : Shared Bool where
  handles i := if i then .start [(.insert loginDraft, loginOccasion)]
    else .start [(.list, loginOccasion)]
  tree := .empty

theorem resting_watchedInsert : watchedInsert.Resting := by
  intro i
  cases i <;> rfl

theorem reading_watchedInsert (i : Bool) (ne : i ≠ true) : (watchedInsert.handles i).Reading := by
  cases i with
  | true => exact (ne rfl).elim
  | false => exact ⟨rfl, by simp [watchedInsert, Handle.start, StoreCall.Idle]⟩

theorem settled_watchedInsert :
    (watchedInsert.run tasksFile [true, false, true]).Resting := by
  intro i
  cases i with
  | false => exact (run_reading (reading_watchedInsert false (by decide)) _).resting
  | true =>
    have loaded := FileStore.holds_emptyTree.load
    have answered : TaskBook.empty.answer (.insert loginDraft) loginOccasion =
        .ok (.task loginTask, some ⟨[loginTask]⟩) := rfl
    have busy : ((watchedInsert.run tasksFile [true, false]).handles true).pending ≠ none := by
      simp [Shared.run, step, put, watchedInsert, Handle.start,
        Handle.step_of_changed loaded answered]
    change ((watchedInsert.run tasksFile ([true, false] ++ [true])).handles true).pending = none
    rw [run_concat, step, put_handles_self]
    exact Handle.step_resting busy

theorem run_eq_inOrder_watchedInsert :
    watchedInsert.Resting ∧
      (∀ before, before <+: [true, false, true] →
        (watchedInsert.run tasksFile before).Apart) ∧
      (watchedInsert.run tasksFile [true, false, true]).Resting ∧
      ∃ order, watchedInsert.run tasksFile [true, false, true] =
        watchedInsert.inOrder tasksFile order :=
  ⟨resting_watchedInsert, fun before _ => run_apart_of_reading reading_watchedInsert before,
    settled_watchedInsert,
    run_eq_inOrder resting_watchedInsert
      (fun before _ => run_apart_of_reading reading_watchedInsert before) settled_watchedInsert⟩

end Shared

end Foreman

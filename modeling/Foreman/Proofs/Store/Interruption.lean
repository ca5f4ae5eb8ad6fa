import Foreman.Proofs.Files.Interruption
import Foreman.Proofs.Store.File
import Foreman.Proofs.Task.Book

namespace Foreman

/-- Whether a call leaves a book as it is. -/
def StoreCall.Idle (b : TaskBook) : StoreCall → Prop
  | fetch | find _ | list => True
  | requeue => ∀ t ∈ b.tasks, t.status ≠ .inProgress
  | set id _ => ∀ t ∈ b.tasks, t.id ≠ id
  | insert _ => False

theorem TaskBook.answer_ne_of_idle {b b' : TaskBook} (h : c.Idle b) :
    b.answer c o ≠ .ok (reply, some b') := by
  cases c with
  | fetch | list => nofun
  | find id =>
    intro answered
    simp only [answer] at answered
    split at answered <;> cases answered
  | requeue =>
    intro answered
    have none : b.strandedCount = 0 := by
      apply List.countP_eq_zero.2
      intro t ht
      simpa using h t ht
    simp [answer, none] at answered
  | set id u =>
    intro answered
    simp only [answer] at answered
    split at answered
    · rename_i changed
      obtain ⟨ts, hs, -⟩ := Option.map_eq_some_iff.1 changed
      obtain ⟨t, ht⟩ := Option.isSome_iff_exists.1 (changeFirst?_isSome hs)
      exact h t (List.mem_of_find?_eq_some ht) (by simpa using List.find?_some ht)
    · cases answered
  | insert d => exact h.elim

namespace FileStore

open FileProgram (Ends)

theorem double_file (s : FileStore) : Path.IsDouble s.file.extension := by
  show Path.IsDouble "json.tmp"
  exact ⟨by decide, by decide⟩

theorem eq_of_reading_ends {s : FileStore}
    (ends : FileProgram.Ends
      (match Fault.expect s!"read task store {s.path}" (t.readText s.path) with
      | .error e => .done (.error e)
      | .ok content =>
        match TaskBook.parse? content with
        | some b => .done (.ok b)
        | none =>
          .done (.error ((Fault.of "malformed document").within s!"parse task store {s.path}")) :
        FileProgram (Except Fault TaskBook)) t r t') :
    t' = t ∧ ∀ b, r = some (.ok b) → (s.load.run t).1 = .ok b := by
  cases read : t.readText s.path with
  | error e =>
    rw [read] at ends
    cases ends with
    | finished | brokenOff => exact ⟨rfl, by rintro _ ⟨⟩⟩
  | ok content =>
    simp only [read, Fault.expect] at ends
    cases parsed : TaskBook.parse? content with
    | none =>
      rw [parsed] at ends
      cases ends with
      | finished | brokenOff => exact ⟨rfl, by rintro _ ⟨⟩⟩
    | some b =>
      rw [parsed] at ends
      cases ends with
      | brokenOff => exact ⟨rfl, by rintro _ ⟨⟩⟩
      | finished =>
        refine ⟨rfl, ?_⟩
        rintro b ⟨⟩
        have holds : s.Holds t b := .inr ⟨content, read, parsed⟩
        rw [holds.load]

/-- Loading changes nothing, and what it gives is what the file holds. -/
theorem eq_of_load_ends {s : FileStore} (ends : s.load.Ends t r t') :
    t' = t ∧ ∀ b, r = some (.ok b) → (s.load.run t).1 = .ok b := by
  cases ends with
  | brokenOff => exact ⟨rfl, by rintro _ ⟨⟩⟩
  | exists? answer rest =>
    rcases answer with rfl | ⟨e, rfl⟩
    · cases there : t.exists? s.path with
      | error e =>
        rw [there] at rest
        cases rest with
        | finished | brokenOff => exact ⟨rfl, by rintro _ ⟨⟩⟩
      | ok found =>
        rw [there] at rest
        cases found with
        | false =>
          cases rest with
          | brokenOff => exact ⟨rfl, by rintro _ ⟨⟩⟩
          | finished =>
            refine ⟨rfl, ?_⟩
            rintro b ⟨⟩
            simp [load, FileProgram.run, there, Fault.expect]
        | true =>
          cases rest with
          | brokenOff => exact ⟨rfl, by rintro _ ⟨⟩⟩
          | readText answer rest =>
            rcases answer with rfl | ⟨e, rfl⟩
            · exact eq_of_reading_ends rest
            · cases rest with
              | finished | brokenOff => exact ⟨rfl, by rintro _ ⟨⟩⟩
    · cases rest with
      | finished | brokenOff => exact ⟨rfl, by rintro _ ⟨⟩⟩

/-- What is left of a call on a store, with its answer if it came so far. -/
structure AllOrNothing (s : FileStore) (c : StoreCall) (o : Occasion) (t : FileTree)
    (r : Option (Except StoreError StoreReply)) (t' : FileTree) : Prop where
  text : t.Spares t' s.path ∨ ∃ b reply changed, (s.load.run t).1 = .ok b ∧
    b.answer c o = .ok (reply, some changed) ∧ t'.readText s.path = .ok changed.render
  refused : ∀ e, r = some (.error e) → t.Spares t' s.path
  idle : (∀ b, (s.load.run t).1 = .ok b → c.Idle b) → t' = t
  answered : ∀ reply, r = some (.ok reply) → ∃ b changed, (s.load.run t).1 = .ok b ∧
    b.answer c o = .ok (reply, changed) ∧
      match changed with
      | none => t' = t
      | some changed => t'.readText s.path = .ok changed.render ∧
        t'.exists? s.file.temporaryPath = .ok false

section

variable {s : FileStore} {c : StoreCall} {o : Occasion} {b changed : TaskBook}
  {r : Option (Except StoreError StoreReply)}

/-- A call that has touched no file and gives no reply. -/
theorem AllOrNothing.of_silent (silent : r = none ∨ ∃ e, r = some (.error e)) :
    s.AllOrNothing c o t r t where
  text := .inl (.refl t s.path)
  refused _ _ := .refl t s.path
  idle _ := rfl
  answered reply h := by
    rcases silent with rfl | ⟨e, rfl⟩ <;> cases h

theorem AllOrNothing.of_unchanged (loaded : (s.load.run t).1 = .ok b)
    (answered : b.answer c o = .ok (reply, none)) :
    s.AllOrNothing c o t (some (.ok reply)) t where
  text := .inl (.refl t s.path)
  refused _ _ := .refl t s.path
  idle _ := rfl
  answered reply' h := by
    cases h
    exact ⟨b, none, loaded, answered, rfl⟩

/-- How the answer to a call that changes the book goes with that to saving it. -/
inductive Passes (reply : StoreReply) :
    Option (Except Fault Unit) → Option (Except StoreError StoreReply) → Prop
  | unanswered : Passes reply saved none
  | failed : Passes reply (some (.error e)) (some (.error (.other e)))
  | saved : Passes reply (some (.ok ())) (some (.ok reply))

theorem AllOrNothing.of_changed (loaded : (s.load.run t).1 = .ok b)
    (answered : b.answer c o = .ok (reply, some changed))
    (left : s.file.Leaves changed.render t saved t') (passes : Passes reply saved r) :
    s.AllOrNothing c o t r t' := by
  have busy : ¬ ∀ b, (s.load.run t).1 = .ok b → c.Idle b :=
    fun idle => TaskBook.answer_ne_of_idle (idle b loaded) answered
  cases left with
  | old spares unfinished =>
    refine ⟨.inl spares, fun _ _ => spares, fun idle => (busy idle).elim, ?_⟩
    rintro reply' rfl
    cases passes
    exact (unfinished rfl).elim
  | new read gone unfailed =>
    refine ⟨.inr ⟨b, reply, changed, loaded, answered, read⟩, ?_, fun idle => (busy idle).elim, ?_⟩
    · rintro e rfl
      cases passes
      exact (unfailed _ rfl).elim
    · rintro reply' rfl
      cases passes
      exact ⟨b, some changed, loaded, answered, read, gone⟩

/-- Whichever of its operations on files fail, and wherever it breaks off, a call leaves all of the
old text or all of the new one. -/
theorem perform_allOrNothing (rooted : t.Rooted) (ends : (s.perform c o).Ends t r t') :
    s.AllOrNothing c o t r t' := by
  rcases ends.of_bind with ⟨loading, rfl⟩ | ⟨loaded, t₁, loading, rest⟩
  · obtain ⟨rfl, -⟩ := eq_of_load_ends loading
    exact .of_silent (.inl rfl)
  obtain ⟨rfl, book⟩ := eq_of_load_ends loading
  cases loaded with
  | error e =>
    cases rest with
    | finished => exact .of_silent (.inr ⟨_, rfl⟩)
    | brokenOff => exact .of_silent (.inl rfl)
  | ok b =>
    have loaded := book b rfl
    cases answered : b.answer c o with
    | error e =>
      simp only [answered] at rest
      cases rest with
      | finished => exact .of_silent (.inr ⟨e, rfl⟩)
      | brokenOff => exact .of_silent (.inl rfl)
    | ok answer =>
      obtain ⟨reply, changed⟩ := answer
      cases changed with
      | none =>
        simp only [answered] at rest
        cases rest with
        | finished => exact .of_unchanged loaded answered
        | brokenOff => exact .of_silent (.inl rfl)
      | some changed =>
        simp only [answered] at rest
        rcases rest.of_bind with ⟨saving, rfl⟩ | ⟨saved, t₂, saving, rest⟩
        · have left := Replaceable.leaves_of_replace rooted s.double_file saving
          exact .of_changed loaded answered left .unanswered
        · have left := Replaceable.leaves_of_replace rooted s.double_file saving
          cases saved with
          | error e =>
            cases rest with
            | finished => exact .of_changed loaded answered left .failed
            | brokenOff => exact .of_changed loaded answered left .unanswered
          | ok =>
            cases rest with
            | finished => exact .of_changed loaded answered left .saved
            | brokenOff => exact .of_changed loaded answered left .unanswered

end

/-- A store beside whose file a write that was cut short has left its temporary file. -/
def leftoverTree (half : ByteArray) : FileTree :=
  ⟨[(["tasks.json"], .file foreignText.toUTF8), (["tasks.json.tmp"], .file half)], []⟩

theorem rooted_leftoverTree (half : ByteArray) : (leftoverTree half).Rooted where
  start := rfl
  above place there := by
    match place with
    | [] | [_] => rfl
    | _ :: _ :: _ => simp [leftoverTree, FileTree.node?, List.lookup_cons] at there

theorem holds_leftoverTree (half : ByteArray) : tasksFile.Holds (leftoverTree half) .empty := by
  refine .inr ⟨foreignText, ?_, by decide +kernel⟩
  exact FileTree.readText_eq_ok.2 (FileTree.stat_eq_ok.2 ⟨["tasks.json"], locate_tasksFile _, rfl⟩)

theorem scribbled_leftoverTree (half other : ByteArray) :
    (leftoverTree half).Scribbled tasksFile.file.temporaryPath (leftoverTree other) := by
  have temporary : tasksFile.file.temporaryPath = "tasks.json.tmp" := by decide +kernel
  rw [temporary]
  exact .inr ⟨["tasks.json.tmp"], other, by rfl, nofun, rfl⟩

/-- Why nothing is saved where the temporary file cannot be written. -/
def noTemporary : Fault :=
  (Fault.of FileError.accessDenied.message).within
    s!"write temp task store {tasksFile.file.temporaryPath}"

theorem ends_save_noTemporary (b : TaskBook) (half other : ByteArray) :
    (tasksFile.save b).Ends (leftoverTree half) (some (.error noTemporary)) (leftoverTree other) :=
  .write (.part .accessDenied (scribbled_leftoverTree half other)) .finished

theorem ends_insert_noTemporary (draft : TaskDraft) (o : Occasion) (half other : ByteArray) :
    (tasksFile.perform (.insert draft) o).Ends (leftoverTree half)
      (some (.error (.other noTemporary))) (leftoverTree other) := by
  have loading := FileProgram.ends_run tasksFile.load (leftoverTree half)
  rw [(holds_leftoverTree half).load] at loading
  exact loading.bind ((ends_save_noTemporary _ half other).bind .finished)

def loginDraft : TaskDraft := ⟨"Fix login", none, none, none, none⟩

def loginOccasion : Occasion := ⟨⟨⟨2024, 5, 6, by decide⟩, 3600, 0, by decide⟩, "t-1"⟩

theorem perform_allOrNothing_noTemporary :
    (leftoverTree "[".toUTF8).Rooted ∧
      (tasksFile.perform (.insert loginDraft) loginOccasion).Ends (leftoverTree "[".toUTF8)
        (some (.error (.other noTemporary))) (leftoverTree "\x7b".toUTF8) ∧
      tasksFile.AllOrNothing (.insert loginDraft) loginOccasion (leftoverTree "[".toUTF8)
        (some (.error (.other noTemporary))) (leftoverTree "\x7b".toUTF8) :=
  ⟨rooted_leftoverTree _, ends_insert_noTemporary _ _ _ _,
    perform_allOrNothing (rooted_leftoverTree _) (ends_insert_noTemporary _ _ _ _)⟩

end FileStore

end Foreman

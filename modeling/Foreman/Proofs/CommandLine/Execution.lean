import Foreman.CommandLine.Execution
import Foreman.Proofs.CommandLine.Words
import Foreman.Proofs.Store.Concurrency

namespace Foreman

open FileProgram (Ends)

namespace FileStore

variable {s : FileStore} {c : StoreCall} {o : Occasion} {t t' : FileTree} {id : String}

/-- A call finds no task only in a book that was loaded. -/
theorem refused_of_notFound (ends : (s.perform c o).Ends t (some (.error (.notFound id))) t') :
    ∃ b, (s.load.run t).1 = .ok b ∧ b.answer c o = .error (.notFound id) := by
  obtain ⟨loaded, t₁, loading, rest⟩ := ends.of_bind_some
  obtain ⟨rfl, book⟩ := eq_of_load_ends loading
  cases loaded with
  | error e => cases rest
  | ok b =>
    refine ⟨b, book b rfl, ?_⟩
    cases answered : b.answer c o with
    | error e =>
      simp only [answered] at rest
      cases rest
      rfl
    | ok answer =>
      obtain ⟨reply, changed⟩ := answer
      cases changed with
      | none =>
        simp only [answered] at rest
        cases rest
      | some changed =>
        simp only [answered] at rest
        obtain ⟨saved, t₂, -, rest⟩ := rest.of_bind_some
        cases saved with
        | error e => cases rest
        | ok => cases rest

/-- A call that is answered leaves a file that holds the book it has made. -/
theorem loaded_of_answered (rooted : t.Rooted) (new : c.Restored)
    (ends : (s.perform c o).Ends t (some (.ok reply)) t') :
    ∃ b changed, (s.load.run t).1 = .ok b ∧ b.answer c o = .ok (reply, changed) ∧
      (b.Restored → (s.load.run t').1 = .ok (changed.getD b)) := by
  obtain ⟨b, changed, loaded, answered, left⟩ :=
    (perform_allOrNothing rooted ends).answered reply rfl
  refine ⟨b, changed, loaded, answered, fun restored => ?_⟩
  cases changed with
  | none =>
    cases left
    exact loaded
  | some changed =>
    have read := TaskBook.parse?_render (restored.answer new answered)
    have holds : s.Holds t' changed := .inr ⟨changed.render, left.1, read⟩
    rw [holds.load]
    rfl

end FileStore

theorem Settings.asks_load (path : String) : (Settings.load path).Asks := by
  refine .exists? fun there => ?_
  split
  · refine .readText fun content => ?_
    split
    · exact .done
    · split <;> exact .done
  · exact .done

namespace CommandLine

variable {s : FileStore} {c : Command} {call : StoreCall} {o : Occasion} {b b' : TaskBook}
  {t t' : FileTree} {id : String}

/-- What a command asks of the store. -/
def Command.call? : Command → Option StoreCall
  | run _ => none
  | add d => some (.insert d)
  | list _ => some .list
  | queue id => some (.set id (.ofStatus .queued))
  | cancel id => some (.set id (.ofStatus .cancelled))

/-- Whether a command moves a task that the book does not have. -/
def Command.Misses (b : TaskBook) : Command → Prop
  | queue id | cancel id => ∀ task ∈ b.tasks, task.id ≠ id
  | _ => False

/-- Whether a command is one that can be done on the book. -/
def Command.Possible (b : TaskBook) : Command → Prop
  | run _ => False
  | add _ => True
  | list status => ∀ text ∈ status, (Task.Status.ofName? text).isSome
  | queue id | cancel id => ∃ task ∈ b.tasks, task.id = id

/-- The first task with an id gets another status and time of completion. -/
def Moves (id : String) (status : Task.Status) (completed : Option Instant) (b b' : TaskBook) :
    Prop :=
  ∃ front task back, b.tasks = front ++ task :: back ∧ task.id = id ∧
    (∀ other ∈ front, other.id ≠ id) ∧
    b'.tasks = front ++ { task with status, completed } :: back

/-- What a command makes of the book. -/
def Command.Makes (o : Occasion) (b b' : TaskBook) : Command → Prop
  | run _ | list _ => b' = b
  | add d => b'.tasks = b.tasks ++
      [{ id := o.freshId
         title := d.title
         description := d.description
         notes := d.notes
         area := d.area
         status := d.status.getD .queued
         commit := none
         metrics := none
         created := o.now
         completed := none }]
  | queue id => Moves id .queued none b b'
  | cancel id => Moves id .cancelled (some o.now) b b'

/-- How a command has ended with a store. -/
structure Accounts (s : FileStore) (c : Command) (o : Occasion) (t : FileTree) (code : Nat)
    (t' : FileTree) : Prop where
  known : code = 0 ∨ code = 1 ∨ code = 2
  spared : code ≠ 0 → t.Spares t' s.path
  missed : code = 2 → ∃ b, (s.load.run t).1 = .ok b ∧ c.Misses b
  made : code = 0 → ∃ b, (s.load.run t).1 = .ok b ∧
    (b.Restored → ∃ b', (s.load.run t').1 = .ok b' ∧ c.Makes o b b')
  listed : ∀ status, c = .list status → t' = t

/-- How a command has ended, by what came of its settings. -/
def Settles (loaded : Except Fault Settings) (c : Command) (o : Occasion) (t : FileTree)
    (code : Nat) (t' : FileTree) : Prop :=
  match loaded with
  | .error _ => code = 1 ∧ t' = t
  | .ok s => Accounts ⟨s.storePath⟩ c o t code t'

def answerCode : Except StoreError StoreReply → Nat
  | .ok _ => 0
  | .error (.notFound _) => 2
  | .error (.other _) => 1

theorem code_ofStoreError (e : StoreError) (f : Fault) :
    (Exit.ofStoreError e f).code = answerCode (.error e) := by
  cases e <;> rfl

theorem answer_set_eq_error {u : TaskUpdate} :
    b.answer (.set id u) o = .error e ↔ e = .notFound id ∧ ∀ task ∈ b.tasks, task.id ≠ id := by
  rw [← TaskBook.changeFirst?_eq_none (f := (·.update u o.now)), TaskBook.answer,
    TaskBook.update?]
  cases TaskBook.changeFirst? id (·.update u o.now) b.tasks <;> simp [eq_comm]

theorem moves_of_answer {status : Task.Status}
    (answered : b.answer (.set id (.ofStatus status)) o = .ok (reply, changed)) :
    Moves id status (if status.isTerminal then some o.now else none) b (changed.getD b) := by
  simp only [TaskBook.answer] at answered
  split at answered
  · rename_i updated
    cases answered
    obtain ⟨ts, hs, rfl⟩ := Option.map_eq_some_iff.1 updated
    obtain ⟨front, task, back, split, same, other, rfl⟩ := TaskBook.changeFirst?_eq_some.1 hs
    exact ⟨front, task, back, split, same, other, rfl⟩
  · cases answered

theorem makes_of_answer (hc : c.call? = some call)
    (answered : b.answer call o = .ok (reply, changed)) : c.Makes o b (changed.getD b) := by
  cases c with
  | run sink => cases hc
  | add d =>
    cases hc
    cases answered
    rfl
  | list status =>
    cases hc
    cases answered
    rfl
  | queue id =>
    cases hc
    exact moves_of_answer answered
  | cancel id =>
    cases hc
    exact moves_of_answer answered

theorem misses_of_answer (hc : c.call? = some call)
    (refused : b.answer call o = .error e) : c.Misses b := by
  cases c with
  | run sink => cases hc
  | add d | list status =>
    cases hc
    cases refused
  | queue id | cancel id =>
    cases hc
    exact (answer_set_eq_error.1 refused).2

theorem answer_of_misses (hc : c.call? = some call) (missed : c.Misses b) :
    ∃ id, b.answer call o = .error (.notFound id) := by
  cases c with
  | run sink | add d | list status => exact missed.elim
  | queue id | cancel id =>
    cases hc
    exact ⟨id, answer_set_eq_error.2 ⟨rfl, missed⟩⟩

/-- A command that is possible is answered. -/
theorem answer_of_possible (hc : c.call? = some call) (possible : c.Possible b) :
    ∃ reply changed, b.answer call o = .ok (reply, changed) := by
  cases answered : b.answer call o with
  | ok answer => exact ⟨_, _, rfl⟩
  | error e =>
    have missed := misses_of_answer hc answered
    cases c with
    | run sink | add d | list status => exact missed.elim
    | queue id | cancel id =>
      obtain ⟨task, member, same⟩ := possible
      exact (missed task member same).elim

theorem Command.restored (hc : c.call? = some call) : call.Restored := by
  cases c with
  | run sink => cases hc
  | add d | list status =>
    cases hc
    trivial
  | queue id | cancel id =>
    cases hc
    nofun

theorem accounts_of_perform (rooted : t.Rooted) (hc : c.call? = some call)
    (ends : ∃ r, (s.perform call o).Ends t (some r) t' ∧ code = answerCode r) :
    Accounts s c o t code t' := by
  obtain ⟨r, ends, rfl⟩ := ends
  have whole := FileStore.perform_allOrNothing rooted ends
  have listed : ∀ status, c = .list status → t' = t := by
    rintro status rfl
    cases hc
    exact whole.idle fun _ _ => trivial
  cases r with
  | ok reply =>
    obtain ⟨b, changed, loaded, answered, after⟩ :=
      FileStore.loaded_of_answered rooted (Command.restored hc) ends
    refine ⟨.inl rfl, nofun, nofun, fun _ => ⟨b, loaded, fun restored => ?_⟩, listed⟩
    exact ⟨_, after restored, makes_of_answer hc answered⟩
  | error e =>
    have spared := whole.refused e rfl
    cases e with
    | notFound id =>
      obtain ⟨b, loaded, refused⟩ := FileStore.refused_of_notFound ends
      exact ⟨.inr (.inr rfl), fun _ => spared, fun _ => ⟨b, loaded, misses_of_answer hc refused⟩,
        nofun, listed⟩
    | other f => exact ⟨.inr (.inl rfl), fun _ => spared, nofun, nofun, listed⟩

/-- A program that makes a call on the store and exits as the answer is. -/
def Answers (s : FileStore) (call : StoreCall) (o : Occasion) (p : FileProgram Exit) : Prop :=
  ∃ next, p = s.perform call o >>= next ∧
    ∀ r, ∃ e, next r = .done e ∧ e.code = answerCode r

theorem answers_add (s : FileStore) (d : TaskDraft) (o : Occasion) :
    Answers s (.insert d) o (add s d o) := by
  refine ⟨_, rfl, fun r => ?_⟩
  rcases r with e | reply
  · exact ⟨_, rfl, code_ofStoreError e _⟩
  · cases reply <;> exact ⟨_, rfl, rfl⟩

theorem answers_list (s : FileStore) (status : Option Task.Status) (o : Occasion) :
    Answers s .list o (list s status o) := by
  refine ⟨_, rfl, fun r => ?_⟩
  rcases r with e | reply
  · exact ⟨_, rfl, code_ofStoreError e _⟩
  · cases reply <;> exact ⟨_, rfl, rfl⟩

theorem answers_move (s : FileStore) (id : String) (status : Task.Status) (o : Occasion) :
    Answers s (.set id (.ofStatus status)) o (move s id status o) := by
  refine ⟨_, rfl, fun r => ?_⟩
  rcases r with e | reply
  · exact ⟨_, rfl, code_ofStoreError e _⟩
  · exact ⟨_, rfl, rfl⟩

/-- A command makes its call, unless it asks for a status that there is not. -/
theorem Command.execute_cases (s : Settings) (o : Occasion) (offline : ∀ sink, c ≠ .run sink) :
    (∃ text f, c = .list (some text) ∧ Task.Status.ofName? text = none ∧
      c.execute s o = pure (.exit (.failed f))) ∨
    ∃ call p, c.call? = some call ∧ Answers ⟨s.storePath⟩ call o p ∧
      c.execute s o = p >>= fun e => pure (.exit e) := by
  cases c with
  | run sink => exact (offline sink rfl).elim
  | add d => exact .inr ⟨_, _, rfl, answers_add ⟨s.storePath⟩ d o, rfl⟩
  | list status =>
    cases status with
    | none => exact .inr ⟨_, _, rfl, answers_list ⟨s.storePath⟩ none o, rfl⟩
    | some text =>
      cases known : Task.Status.ofName? text with
      | none => exact .inl ⟨text, _, rfl, known, by rw [execute, known]⟩
      | some status =>
        refine .inr ⟨_, _, rfl, answers_list ⟨s.storePath⟩ (some status) o, ?_⟩
        rw [execute, known]
  | queue id => exact .inr ⟨_, _, rfl, answers_move ⟨s.storePath⟩ id .queued o, rfl⟩
  | cancel id => exact .inr ⟨_, _, rfl, answers_move ⟨s.storePath⟩ id .cancelled o, rfl⟩

theorem Answers.of_ends {p : FileProgram Exit} (h : Answers s call o p)
    (ends : (p >>= fun e => pure (Plan.exit e)).Ends t (some plan) t') :
    ∃ e, plan = .exit e ∧
      ∃ r, (s.perform call o).Ends t (some r) t' ∧ e.code = answerCode r := by
  obtain ⟨next, rfl, exits⟩ := h
  obtain ⟨e, t₁, first, rest⟩ := ends.of_bind_some
  cases rest
  obtain ⟨r, t₂, performed, rest⟩ := first.of_bind_some
  obtain ⟨e', exit, code⟩ := exits r
  rw [exit] at rest
  cases rest
  exact ⟨_, rfl, r, performed, code⟩

theorem Answers.run {p : FileProgram Exit} (h : Answers s call o p)
    (performed : (s.perform call o).run t = (r, t')) :
    ∃ e, ((p >>= fun e => pure (Plan.exit e)).run t).1 = .exit e ∧ e.code = answerCode r := by
  obtain ⟨next, rfl, exits⟩ := h
  obtain ⟨e, exit, code⟩ := exits r
  refine ⟨e, ?_, code⟩
  rw [FileProgram.run_bind, FileProgram.run_bind, performed, exit]
  rfl

theorem accounts_of_execute {s : Settings} (rooted : t.Rooted) (offline : ∀ sink, c ≠ .run sink)
    (ends : (c.execute s o).Ends t (some plan) t') :
    ∃ e, plan = .exit e ∧ Accounts ⟨s.storePath⟩ c o t e.code t' := by
  rcases c.execute_cases s o offline with ⟨text, f, -, -, same⟩ | ⟨call, p, hc, answers, same⟩
  · rw [same] at ends
    cases ends
    exact ⟨_, rfl, .inr (.inl rfl), fun _ => .refl t _, nofun, nofun, fun _ _ => rfl⟩
  · rw [same] at ends
    obtain ⟨e, exit, ends⟩ := answers.of_ends ends
    exact ⟨e, exit, accounts_of_perform rooted hc ends⟩

theorem run_execute_missed {s : Settings} (offline : ∀ sink, c ≠ .run sink)
    (loaded : (FileStore.mk s.storePath).load.run t = (.ok b, t)) (missed : c.Misses b) :
    ∃ e, ((c.execute s o).run t).1 = .exit e ∧ e.code = 2 := by
  rcases c.execute_cases s o offline with ⟨text, f, rfl, -⟩ | ⟨call, p, hc, answers, same⟩
  · exact missed.elim
  · obtain ⟨id, refused⟩ := answer_of_misses (o := o) hc missed
    rw [same]
    exact answers.run (FileStore.run_perform_refused loaded refused)

theorem run_execute_possible {s : Settings} (offline : ∀ sink, c ≠ .run sink)
    (loaded : (FileStore.mk s.storePath).load.run t = (.ok b, t)) (possible : c.Possible b)
    (usable : (FileStore.mk s.storePath).file.Usable t) :
    ∃ e, ((c.execute s o).run t).1 = .exit e ∧ e.code = 0 := by
  rcases c.execute_cases s o offline with ⟨text, f, rfl, unknown, -⟩ | ⟨call, p, hc, answers, same⟩
  · have known := possible text rfl
    rw [unknown] at known
    cases known
  · obtain ⟨reply, changed, answered⟩ := answer_of_possible (o := o) hc possible
    rw [same]
    cases changed with
    | none => exact answers.run (FileStore.run_perform_unchanged loaded answered)
    | some changed =>
      obtain ⟨t', saved, -⟩ := usable.run_replace changed.render
      exact answers.run (FileStore.run_perform_changed loaded answered saved)

variable {i : Invocation} {ws : List String}

/-- What a command does with what came of its settings. -/
def Command.proceed (c : Command) (o : Occasion) : Except Fault Settings → FileProgram Plan
  | .error f => return .exit (.failed f)
  | .ok s => c.execute s o

theorem execute_eq (hr : read ws = .ok i) :
    execute ws o = Settings.load i.settings >>= i.command.proceed o := by
  rw [execute, hr]
  rfl

theorem settles_of_proceed (rooted : t.Rooted) (offline : ∀ sink, c ≠ .run sink)
    (ends : (c.proceed o loaded).Ends t (some plan) t') :
    ∃ e, plan = .exit e ∧ Settles loaded c o t e.code t' := by
  cases loaded with
  | error f =>
    cases ends
    exact ⟨_, rfl, rfl, rfl⟩
  | ok s => exact accounts_of_execute rooted offline ends

theorem Settles.missed (h : Settles loaded c o t 2 t') :
    ∃ s b, loaded = .ok s ∧ ((FileStore.mk s.storePath).load.run t).1 = .ok b ∧ c.Misses b := by
  cases loaded with
  | error f => cases h.1
  | ok s =>
    obtain ⟨b, hb, missed⟩ := Accounts.missed h rfl
    exact ⟨s, b, rfl, hb, missed⟩

/-- A command is what the words say, and it ends with an exit. Unless that is a success, the file of
the store is what it was, and the code tells whether settings and store were loaded and only the
task was missed. A success leaves the book as it was, or with one new task behind it, or with the
first task of the id moved. Where the file can be replaced, a command that is possible on the book
succeeds. Also when any operation on files may fail, a command leaves no more than it accounts
for. -/
theorem execute_settles (rooted : t.Rooted) (hr : read ws = .ok i)
    (offline : ∀ sink, i.command ≠ .run sink) :
    (∃ e, ((execute ws o).run t).1 = .exit e ∧
      Settles ((Settings.load i.settings).run t).1 i.command o t e.code
        ((execute ws o).run t).2 ∧
      (e.code = 2 ↔ ∃ s b, ((Settings.load i.settings).run t).1 = .ok s ∧
        ((FileStore.mk s.storePath).load.run t).1 = .ok b ∧ i.command.Misses b) ∧
      ∀ s b, ((Settings.load i.settings).run t).1 = .ok s →
        ((FileStore.mk s.storePath).load.run t).1 = .ok b → i.command.Possible b →
        (FileStore.mk s.storePath).file.Usable t → e.code = 0) ∧
    (∀ plan t', (execute ws o).Ends t (some plan) t' →
      ∃ e loaded, plan = .exit e ∧ (Settings.load i.settings).Ends t (some loaded) t ∧
        Settles loaded i.command o t e.code t') ∧
    i.Written ws ∧
    ∀ d, i.command = .add d →
      d.status = if dashed "backlog" ∈ unended ws then some .backlog else none := by
  have asks := Settings.asks_load i.settings
  rw [execute_eq hr]
  refine ⟨?_, ?_, read_written hr, ?_⟩
  · have same : ((Settings.load i.settings).run t).2 = t :=
      asks.eq_of_ends (FileProgram.ends_run _ t)
    rw [FileProgram.run_bind, same]
    generalize ((Settings.load i.settings).run t).1 = loaded
    obtain ⟨e, exit, settles⟩ := settles_of_proceed rooted offline
      (FileProgram.ends_run (i.command.proceed o loaded) t)
    have only {e' : Exit} (exit' : ((i.command.proceed o loaded).run t).1 = .exit e') : e = e' :=
      Plan.exit.inj (exit.symm.trans exit')
    -- Here nothing fails but what the tree makes fail, so the other direction holds too.
    refine ⟨e, exit, settles, ⟨?_, ?_⟩, ?_⟩
    · intro code
      rw [code] at settles
      exact settles.missed
    · rintro ⟨s, b, rfl, hb, missed⟩
      obtain ⟨e', exit', code⟩ := run_execute_missed offline (FileStore.run_load_eq hb) missed
      rw [only exit', code]
    · rintro s b rfl hb possible usable
      obtain ⟨e', exit', code⟩ :=
        run_execute_possible offline (FileStore.run_load_eq hb) possible usable
      rw [only exit', code]
  · intro plan t' ends
    obtain ⟨loaded, t₁, loading, rest⟩ := ends.of_bind_some
    obtain rfl := asks.eq_of_ends loading
    obtain ⟨e, exit, settles⟩ := settles_of_proceed rooted offline rest
    exact ⟨e, loaded, exit, loading, settles⟩
  · intro d hd
    cases i with
    | mk path command =>
      cases hd
      exact read_add hr

theorem rooted_emptyTree : FileTree.empty.Rooted where
  start := rfl
  above place there := by
    cases place with
    | nil => rfl
    | cons => simp [FileTree.empty, FileTree.node?] at there

def laterWords : List String := ["add", "Later", "--backlog"]

def laterTask : Task where
  id := "t-1"
  title := "Later"
  description := none
  notes := none
  area := none
  status := .backlog
  commit := none
  metrics := none
  created := FileStore.loginOccasion.now
  completed := none

theorem settles_laterWords :
    FileTree.empty.Rooted ∧
      read laterWords = .ok ⟨defaultSettings, .add ⟨"Later", none, none, none, some .backlog⟩⟩ ∧
      ((execute laterWords FileStore.loginOccasion).run .empty).1 = .exit (.ok "t-1\n") ∧
      ((FileStore.mk ".dispatcher/tasks.json").load.run
        ((execute laterWords FileStore.loginOccasion).run .empty).2).1 = .ok ⟨[laterTask]⟩ := by
  have hr : read laterWords
      = .ok ⟨defaultSettings, .add ⟨"Later", none, none, none, some .backlog⟩⟩ := by rfl
  have ran : ((execute laterWords FileStore.loginOccasion).run .empty).1
      = .exit (.ok "t-1\n") := by rfl
  have settings : ((Settings.load defaultSettings).run .empty).1 = .ok .standard := by rfl
  have loaded : ((FileStore.mk Settings.standard.storePath).load.run .empty).1 = .ok .empty := by
    rfl
  obtain ⟨⟨e, exit, settles, -⟩, -⟩ :=
    execute_settles (o := FileStore.loginOccasion) rooted_emptyTree hr nofun
  rw [settings] at settles
  have code : e = .ok "t-1\n" := Plan.exit.inj (exit.symm.trans ran)
  obtain ⟨b, hb, makes⟩ := settles.made (congrArg Exit.code code)
  obtain rfl : TaskBook.empty = b := Except.ok.inj (loaded.symm.trans hb)
  obtain ⟨b', after, made⟩ := makes TaskBook.restored_empty
  have one : b' = ⟨[laterTask]⟩ := congrArg TaskBook.mk made
  exact ⟨rooted_emptyTree, hr, ran, after.trans (congrArg Except.ok one)⟩

example : (execute ["cancel", "t-2"] FileStore.loginOccasion).run .empty
    = (.exit ⟨2, "", "set task t-2 to cancelled: task t-2 not found\n"⟩, .empty) := by
  rfl

end CommandLine

end Foreman

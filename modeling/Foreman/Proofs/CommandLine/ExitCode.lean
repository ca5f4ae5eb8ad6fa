import Foreman.Proofs.CommandLine.Execution

namespace Foreman.CommandLine

open FileProgram (Ends)

variable {s : Settings} {c : Command} {call : StoreCall} {o : Occasion} {t t' : FileTree}
  {ws : List String} {i : Invocation} {stop : Stop} {e : Exit} {r : Except StoreError StoreReply}

/-- A command that does not ask for a status that there is not. -/
def Command.Legible (c : Command) : Prop :=
  ∀ text, c = .list (some text) → Task.Status.ofName? text ≠ none

/-- The words make a command that names a task, and the task is not in the book that the settings
lead to. -/
def MissesTask (ws : List String) (t : FileTree) : Prop :=
  ∃ i s b, read ws = .ok i ∧ ((Settings.load i.settings).run t).1 = .ok s ∧
    ((FileStore.mk s.storePath).load.run t).1 = .ok b ∧ i.command.Misses b

/-- The words ask for help or the version, or they make a command and the store does what that is
for. -/
def Succeeds (ws : List String) (o : Occasion) (t : FileTree) : Prop :=
  read ws = .error .help ∨ read ws = .error .version ∨
    ∃ i s call reply, read ws = .ok i ∧ ((Settings.load i.settings).run t).1 = .ok s ∧
      i.command.Legible ∧ i.command.call? = some call ∧
      (((FileStore.mk s.storePath).perform call o).run t).1 = .ok reply

theorem answerCode_eq_success : answerCode r = 0 ↔ ∃ reply, r = .ok reply := by
  rcases r with (id | f) | reply <;> simp [answerCode]

theorem answerCode_eq_notFound :
    answerCode r = 2 ↔ ∃ id, r = .error (.notFound id) := by
  rcases r with (id | f) | reply <;> simp [answerCode]

theorem answerCode_cases (r : Except StoreError StoreReply) :
    answerCode r = 0 ∨ answerCode r = 1 ∨ answerCode r = 2 := by
  rcases r with (id | f) | reply
  · exact .inr (.inr rfl)
  · exact .inr (.inl rfl)
  · exact .inl rfl

/-- A call finds no task exactly if its command misses one. -/
theorem notFound_iff_misses {s : FileStore} (hc : c.call? = some call) :
    (∃ id, ((s.perform call o).run t).1 = .error (.notFound id)) ↔
      ∃ b, (s.load.run t).1 = .ok b ∧ c.Misses b := by
  constructor
  · intro ⟨id, refused⟩
    have ends := FileProgram.ends_run (s.perform call o) t
    rw [refused] at ends
    obtain ⟨b, loaded, answered⟩ := FileStore.refused_of_notFound ends
    exact ⟨b, loaded, misses_of_answer hc answered⟩
  · intro ⟨b, loaded, missed⟩
    obtain ⟨id, answered⟩ := answer_of_misses (o := o) hc missed
    rw [FileStore.run_perform_refused (FileStore.run_load_eq loaded) answered]
    exact ⟨id, rfl⟩

theorem Command.execute_illegible (illegible : ¬ c.Legible) (s : Settings) (o : Occasion) :
    (∃ text, c = .list text) ∧ ∃ f, c.execute s o = pure (.exit (.failed f)) := by
  simp only [Legible, not_forall] at illegible
  obtain ⟨text, rfl, known⟩ := illegible
  have unknown : Task.Status.ofName? text = none := not_not.1 known
  refine ⟨⟨_, rfl⟩, .of (Task.Status.unknownMessage text), ?_⟩
  rw [execute, unknown]

theorem Command.execute_legible (legible : c.Legible) (offline : ∀ sink, c ≠ .run sink)
    (s : Settings) (o : Occasion) :
    ∃ call p, c.call? = some call ∧ Answers ⟨s.storePath⟩ call o p ∧
      c.execute s o = p >>= fun e => pure (.exit e) := by
  rcases c.execute_cases s o offline with ⟨text, f, asks, unknown, -⟩ | answers
  · exact (legible text asks unknown).elim
  · exact answers

theorem Command.not_run_of_ends (ends : (c.execute s o).Ends t (some (.exit e)) t') :
    ∀ sink, c ≠ .run sink := by
  rintro sink rfl
  cases ends

/-- A command ends with a code of its own or with that of the store's answer, whatever may fail. -/
theorem Command.code_of_ends (ends : (c.execute s o).Ends t (some (.exit e)) t') :
    ¬ c.Legible ∧ e.code = 1 ∨ ∃ call r, c.call? = some call ∧
      ((FileStore.mk s.storePath).perform call o).Ends t (some r) t' ∧ e.code = answerCode r := by
  have offline := c.not_run_of_ends ends
  by_cases legible : c.Legible
  · obtain ⟨call, p, hc, answers, same⟩ := Command.execute_legible legible offline s o
    rw [same] at ends
    obtain ⟨e', exit, r, performed, code⟩ := answers.of_ends ends
    cases exit
    exact .inr ⟨call, r, hc, performed, code⟩
  · obtain ⟨-, f, same⟩ := Command.execute_illegible legible s o
    rw [same] at ends
    cases ends
    exact .inl ⟨legible, rfl⟩

theorem Command.code_of_run (exit : ((c.execute s o).run t).1 = .exit e) :
    ¬ c.Legible ∧ e.code = 1 ∨ c.Legible ∧ ∃ call, c.call? = some call ∧
      e.code = answerCode (((FileStore.mk s.storePath).perform call o).run t).1 := by
  have ends := FileProgram.ends_run (c.execute s o) t
  rw [exit] at ends
  have offline := c.not_run_of_ends ends
  by_cases legible : c.Legible
  · obtain ⟨call, p, hc, answers, same⟩ := Command.execute_legible legible offline s o
    obtain ⟨e', exit', code⟩ := answers.run (t := t) rfl
    rw [same, exit'] at exit
    cases exit
    exact .inr ⟨legible, call, hc, code⟩
  · obtain ⟨-, f, same⟩ := Command.execute_illegible legible s o
    rw [same] at exit
    cases exit
    exact .inl ⟨legible, rfl⟩

theorem Command.code_eq_success (exit : ((c.execute s o).run t).1 = .exit e) :
    e.code = 0 ↔ ∃ call reply, c.Legible ∧ c.call? = some call ∧
      (((FileStore.mk s.storePath).perform call o).run t).1 = .ok reply := by
  rcases Command.code_of_run exit with ⟨illegible, code⟩ | ⟨legible, call, hc, code⟩
  · rw [code]
    constructor
    · nofun
    · intro ⟨call, reply, legible, _⟩
      exact (illegible legible).elim
  · rw [code, answerCode_eq_success]
    constructor
    · intro ⟨reply, answered⟩
      exact ⟨call, reply, legible, hc, answered⟩
    · intro ⟨call', reply, _, hc', answered⟩
      rw [Option.some.inj (hc.symm.trans hc')]
      exact ⟨reply, answered⟩

theorem Command.code_eq_notFound (exit : ((c.execute s o).run t).1 = .exit e) :
    e.code = 2 ↔
      ∃ b, ((FileStore.mk s.storePath).load.run t).1 = .ok b ∧ c.Misses b := by
  rcases Command.code_of_run exit with ⟨illegible, code⟩ | ⟨legible, call, hc, code⟩
  · obtain ⟨⟨text, rfl⟩, -⟩ := Command.execute_illegible illegible s o
    rw [code]
    constructor
    · nofun
    · intro ⟨b, _, missed⟩
      exact missed.elim
  · rw [code, answerCode_eq_notFound, notFound_iff_misses hc]

theorem execute_of_error (hr : read ws = .error stop) (o : Occasion) :
    execute ws o = pure (.exit stop.exit) := by
  rw [execute, hr]

theorem run_execute (hr : read ws = .ok i) (o : Occasion) (t : FileTree) :
    (execute ws o).run t = (i.command.proceed o ((Settings.load i.settings).run t).1).run t := by
  have kept : ((Settings.load i.settings).run t).2 = t :=
    (Settings.asks_load i.settings).eq_of_ends (FileProgram.ends_run _ t)
  rw [execute_eq hr, FileProgram.run_bind, kept]

/-- The words make no command, or its settings cannot be loaded, or the command itself exits. -/
theorem exit_cases (exit : ((execute ws o).run t).1 = .exit e) :
    (∃ stop, read ws = .error stop ∧ e = stop.exit) ∨
      (∃ i f, read ws = .ok i ∧ ((Settings.load i.settings).run t).1 = .error f ∧
        e = .failed f) ∨
      ∃ i s, read ws = .ok i ∧ ((Settings.load i.settings).run t).1 = .ok s ∧
        ((i.command.execute s o).run t).1 = .exit e := by
  cases hr : read ws with
  | error stop =>
    rw [execute_of_error hr] at exit
    cases exit
    exact .inl ⟨stop, rfl, rfl⟩
  | ok i =>
    rw [run_execute hr] at exit
    cases loaded : ((Settings.load i.settings).run t).1 with
    | error f =>
      rw [loaded] at exit
      cases exit
      exact .inr (.inl ⟨i, f, rfl, loaded, rfl⟩)
    | ok s =>
      rw [loaded] at exit
      exact .inr (.inr ⟨i, s, rfl, loaded, exit⟩)

theorem code_eq_success (exit : ((execute ws o).run t).1 = .exit e) :
    e.code = 0 ↔ Succeeds ws o t := by
  unfold Succeeds
  rcases exit_cases exit with ⟨stop, hr, rfl⟩ | ⟨i, f, hr, loaded, rfl⟩ | ⟨i, s, hr, loaded, rest⟩
  · cases stop <;> simp [hr, Stop.exit, Exit.ok, Exit.success, Exit.misuse]
  · simp [hr, loaded, Exit.failed, Exit.invalid]
  · simp [hr, loaded, Command.code_eq_success rest]

theorem code_eq_notFound (exit : ((execute ws o).run t).1 = .exit e) :
    e.code = 2 ↔ read ws = .error .misuse ∨ MissesTask ws t := by
  unfold MissesTask
  rcases exit_cases exit with ⟨stop, hr, rfl⟩ | ⟨i, f, hr, loaded, rfl⟩ | ⟨i, s, hr, loaded, rest⟩
  · cases stop <;> simp [hr, Stop.exit, Exit.ok, Exit.success, Exit.misuse]
  · simp [hr, loaded, Exit.failed, Exit.invalid]
  · simp [hr, loaded, Command.code_eq_notFound rest]

theorem code_of_ends (ends : (execute ws o).Ends t (some (.exit e)) t') :
    (e.code = 0 ∨ e.code = 1 ∨ e.code = 2) ∧
      (e.code = 2 → read ws = .error .misuse ∨
        ∃ i s b, read ws = .ok i ∧ (Settings.load i.settings).Ends t (some (.ok s)) t ∧
          ((FileStore.mk s.storePath).load.run t).1 = .ok b ∧ i.command.Misses b) := by
  cases hr : read ws with
  | error stop =>
    rw [execute_of_error hr] at ends
    cases ends
    cases stop with
    | help | version => exact ⟨.inl rfl, nofun⟩
    | misuse => exact ⟨.inr (.inr rfl), fun _ => .inl rfl⟩
  | ok i =>
    rw [execute_eq hr] at ends
    obtain ⟨loaded, t₁, loading, rest⟩ := ends.of_bind_some
    obtain rfl := (Settings.asks_load i.settings).eq_of_ends loading
    cases loaded with
    | error f =>
      cases rest
      exact ⟨.inr (.inl rfl), nofun⟩
    | ok s =>
      rcases Command.code_of_ends rest with ⟨-, code⟩ | ⟨call, r, hc, performed, code⟩
      · rw [code]
        exact ⟨.inr (.inl rfl), nofun⟩
      · rw [code]
        refine ⟨answerCode_cases r, fun missed => .inr ?_⟩
        obtain ⟨id, rfl⟩ := answerCode_eq_notFound.1 missed
        obtain ⟨b, book, answered⟩ := FileStore.refused_of_notFound performed
        exact ⟨i, s, b, rfl, loading, book, misses_of_answer hc answered⟩

/-- Whatever the words and the files are, and whatever fails on the way, a process that hosts
nothing exits with zero, one or two, and with two only if the words make no command or name a task
that is not in the book. Where nothing fails but what the files make fail, the codes tell exactly
this. -/
theorem exit_codes_tell (ws : List String) (o : Occasion) (t : FileTree) :
    (∀ e t', (execute ws o).Ends t (some (.exit e)) t' →
      (e.code = 0 ∨ e.code = 1 ∨ e.code = 2) ∧
        (e.code = 2 → read ws = .error .misuse ∨
          ∃ i s b, read ws = .ok i ∧ (Settings.load i.settings).Ends t (some (.ok s)) t ∧
            ((FileStore.mk s.storePath).load.run t).1 = .ok b ∧ i.command.Misses b)) ∧
    ∀ e, ((execute ws o).run t).1 = .exit e →
      (e.code = 0 ↔ Succeeds ws o t) ∧
        (e.code = 2 ↔ read ws = .error .misuse ∨ MissesTask ws t) ∧
        (e.code = 1 ↔
          ¬ Succeeds ws o t ∧ read ws ≠ .error .misuse ∧ ¬ MissesTask ws t) := by
  constructor
  · intro e t' ends
    exact code_of_ends ends
  · intro e exit
    have succeeds := code_eq_success exit
    have missed := code_eq_notFound exit
    have ends := FileProgram.ends_run (execute ws o) t
    rw [exit] at ends
    refine ⟨succeeds, missed, ?_⟩
    rw [← succeeds, ne_eq, ← not_or, ← missed]
    rcases (code_of_ends ends).1 with code | code | code
    · simp [code]
    · simp [code]
    · simp [code]

/-- A task is missed in the book of a store that is not there yet. -/
theorem exit_codes_tell_strayId :
    ((execute ["cancel", "t-2"] FileStore.loginOccasion).run .empty).1 =
        .exit ⟨2, "", "set task t-2 to cancelled: task t-2 not found\n"⟩ ∧
      MissesTask ["cancel", "t-2"] .empty := by
  have exit : ((execute ["cancel", "t-2"] FileStore.loginOccasion).run .empty).1 =
      .exit ⟨2, "", "set task t-2 to cancelled: task t-2 not found\n"⟩ := by rfl
  have made : read ["cancel", "t-2"] = .ok ⟨defaultSettings, .cancel "t-2"⟩ := by rfl
  obtain ⟨-, told⟩ := exit_codes_tell ["cancel", "t-2"] FileStore.loginOccasion .empty
  obtain ⟨-, missed, -⟩ := told _ exit
  rcases missed.1 rfl with misused | missed
  · rw [made] at misused
    cases misused
  · exact ⟨exit, missed⟩

/-- Words that make no command exit like a command that names no task of the book, though they name
none at all. -/
theorem not_missesTask_of_notFound :
    ¬ ∀ ws o t e, ((execute ws o).run t).1 = .exit e → e.code = 2 →
      MissesTask ws t := by
  intro claimed
  have exit : ((execute ["finish"] FileStore.loginOccasion).run .empty).1 =
      .exit ⟨2, "", usage⟩ := by rfl
  obtain ⟨i, s, b, made, -⟩ := claimed _ _ _ _ exit rfl
  have misused : read ["finish"] = .error .misuse := by rfl
  rw [misused] at made
  cases made

end Foreman.CommandLine

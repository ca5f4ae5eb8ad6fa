import Foreman.Proofs.Executor.Barrier
import Foreman.Proofs.Executor.Dispatch

namespace Foreman.Executor

variable {u : Setup} {b : TaskBook} {s s' : State}

theorem Transition.caller_of_requeueing (ht : Transition u s e s' effects)
    (hc : s.call? c = some .requeueing) (he : e.caller? = some c) :
    (∃ a, e = .requeued c a) ∨ e = .dropped c := by
  cases ht with
  | requeued =>
    cases he
    exact .inl ⟨_, rfl⟩
  | startDropped | pollDropped | waitDropped =>
    cases he
    exact .inr rfl
  | startBegins h | startRefused h | prepareFails h | requeueSkipped h | requeueBegins h
  | launched h | pollEnters h | pollTurnsBack h | idleSeen h | fetchSkipped h | fetchBegins h
  | checkedOut h | nothingTaken h | pollLeaves h | waitEnds h | waitRegisters h | woken h
  | lapsed h | expired h =>
    cases he
    rw [hc] at h
    cases h
  | stopped | stopRefused | replied | finished | elapsed => cases he

/-- Whether a start that waits for the store has not been answered in a history, nor given up. -/
def Awaits (c : Nat) (history : List Occurrence) : Prop :=
  ∀ o ∈ history, o.event ≠ .dropped c ∧ ∀ a, o.event ≠ .requeued c a

theorem Awaits.left (h : Awaits c (past ++ more)) : Awaits c past :=
  fun o ho => h o (List.mem_append_left _ ho)

theorem Leads.requeueing (hl : Leads u s rest s') (hc : s.call? c = some .requeueing)
    (awaits : Awaits c rest) : s'.call? c = some .requeueing := by
  refine hl.keeps_past (P := fun past s => Awaits c past → s.call? c = some .requeueing)
    (fun {past s e s' effects} h ht awaits => ?_) (fun _ => hc) awaits
  have before := h awaits.left
  obtain ⟨kept, unanswered⟩ := awaits ⟨e, effects⟩ (List.mem_append_right _ (.head _))
  apply ht.call?_kept before
  intro he
  rcases ht.caller_of_requeueing before he with ⟨a, answered⟩ | dropped
  · exact unanswered a answered
  · exact kept dropped

theorem Reachable.runs_of_requeueing (h : Reachable u s) (hc : s.call? c = some .requeueing) :
    s.runs = [] :=
  h.flight.runs_of_idle (h.undisturbed c _ hc rfl)

theorem Reachable.not_beginRun (h : Reachable u s) (hc : s.call? c = some .requeueing)
    (ht : Transition u s e s' effects) : .beginRun n ∉ effects := by
  intro begun
  have running := (State.isIdle_iff.1 (ht.isIdle_of_beginRun begun)).1
  rw [(h.starts.starting (State.callIs_of_call? hc)).1] at running
  cases running

theorem Reachable.undisturbed_of_leads (h : Reachable u s) (hc : s.call? c = some .requeueing)
    (hl : Leads u s rest s') (awaits : Awaits c rest) :
    s'.runs = [] ∧ ∀ o ∈ rest, ∀ n, .beginRun n ∉ o.effects := by
  refine ⟨(h.leads hl).runs_of_requeueing (hl.requeueing hc awaits), fun o ho n => ?_⟩
  obtain ⟨before, after, rfl⟩ := List.append_of_mem ho
  obtain ⟨s₁, s₂, hb, ht, -⟩ := hl.at_step
  exact (h.leads hb).not_beginRun (hb.requeueing hc awaits.left) ht

/-- From a book and an executor that has not been used, these acts lead to a floor. -/
inductive Unfolds (u : Setup) (b : TaskBook) : List Act → Floor → Prop where
  | opened : Unfolds u b [] (.opened b)
  | act (before : Unfolds u b past f) (ha : f.act? u a = some (new, f')) :
      Unfolds u b (past ++ [a]) f'

variable {f f' : Floor} {past : List Act} {id : String}

theorem Unfolds.reachable (h : Unfolds u b past f) : Reachable u f.state := by
  induction h with
  | opened => exact .initial
  | act before ha ih => exact ih.moves (.of_act? ha)

theorem Unfolds.of_acts? (acts : List Act) (before : Unfolds u b past f)
    (h : Floor.acts? u log f acts = some (log', f')) : Unfolds u b (past ++ acts) f' := by
  induction acts generalizing past log f with
  | nil =>
    cases h
    rw [List.append_nil]
    exact before
  | cons a rest ih =>
    obtain ⟨⟨new, f₁⟩, ha, h⟩ := Option.bind_eq_some_iff.1 h
    rw [List.append_cons]
    exact ih (.act before ha) h

/-- Whether a run of a task was live and has come to its end. -/
def Ended (u : Setup) (b : TaskBook) (past : List Act) (id : String) : Prop :=
  ∃ before n rest f r, past = before ++ .event (.finished n) :: rest ∧ Unfolds u b before f ∧
    f.state.run? n = some r ∧ r.task.id = id

theorem Ended.append (h : Ended u b past id) (more : List Act) : Ended u b (past ++ more) id := by
  obtain ⟨before, n, rest, f, r, rfl, hf, hr, hid⟩ := h
  exact ⟨before, n, rest ++ more, f, r, List.append_assoc .., hf, hr, hid⟩

/-- Whose doing it is that tasks are in progress: they were when the book was opened, or a run is
live that has marked them, or one that did has ended. -/
def Accounted (u : Setup) (b : TaskBook) (past : List Act) (f : Floor) : Prop :=
  ∀ t ∈ f.book.tasks, t.status = .inProgress →
    (∃ t₀ ∈ b.tasks, t₀.id = t.id ∧ t₀.status = .inProgress) ∨
      (∃ r ∈ f.state.runs, r.task.id = t.id) ∨ Ended u b past t.id

theorem Accounted.event (h : Accounted u b past f) (before : Unfolds u b past f)
    (ht : Transition u f.state e s effects) :
    Accounted u b (past ++ [.event e]) (f.after e s) := by
  intro t hm hs
  rcases h t hm hs with old | ⟨r, hr, hid⟩ | ended
  · exact .inl old
  · have flight := before.reachable.flight
    rcases flight.step_cases hr ht with ⟨-, live⟩ | ⟨rfl, -, -⟩
    · exact .inr (.inl ⟨_, live, r.task_hears ▸ hid⟩)
    · exact .inr (.inr ⟨past, r.number, [], f, r, rfl, before, flight.run?_of_mem hr, hid⟩)
  · exact .inr (.inr (ended.append _))

theorem Accounted.append (h : Accounted u b past f) (book : f'.book = f.book)
    (runs : f'.state.runs = f.state.runs) (more : List Act) :
    Accounted u b (past ++ more) f' := by
  intro t hm hs
  rw [book] at hm
  rw [runs]
  rcases h t hm hs with old | live | ended
  · exact .inl old
  · exact .inr (.inl live)
  · exact .inr (.inr (ended.append more))

theorem Accounted.step (h : Accounted u b past f) (before : Unfolds u b past f)
    (ha : f.act? u a = some (new, f')) : Accounted u b (past ++ [a]) f' := by
  cases a with
  | event e =>
    simp only [Floor.act?] at ha
    split at ha
    case isFalse => cases ha
    case isTrue =>
      obtain ⟨⟨s, effects⟩, hs, he⟩ := Option.map_eq_some_iff.1 ha
      cases he
      exact h.event before (.of_step? hs)
  | find c =>
    simp only [Floor.act?] at ha
    split at ha <;> cases ha
    exact h.append rfl rfl _
  | write n now =>
    obtain ⟨r, hr, ha⟩ := Option.bind_eq_some_iff.1 ha
    split at ha
    case h_1 update hq =>
      obtain ⟨book, hb, he⟩ := Option.map_eq_some_iff.1 ha
      cases he
      intro t hm hs
      rcases TaskBook.mem_of_update? hb hm with old | ⟨hid, -⟩
      · exact h.append rfl rfl _ t old hs
      · exact .inr (.inl ⟨r, List.mem_of_find?_eq_some hr, hid.symm⟩)
    case h_2 => cases ha
  | requeue c =>
    simp only [Floor.act?] at ha
    split at ha <;> cases ha
    -- Nothing is in progress any more.
    intro t hm hs
    exact absurd hs (TaskBook.status_ne_inProgress_of_mem_requeueStranded hm)

theorem Unfolds.accounted (h : Unfolds u b past f) : Accounted u b past f := by
  induction h with
  | opened => exact fun t hm hs => .inl ⟨t, hm, rfl, hs⟩
  | act before ha ih => exact ih.step before ha

theorem Unfolds.stranded (h : Unfolds u b past f) (hc : f.state.call? c = some .requeueing) :
    ∀ t ∈ f.book.tasks, t.status = .inProgress →
      (∃ t₀ ∈ b.tasks, t₀.id = t.id ∧ t₀.status = .inProgress) ∨ Ended u b past t.id := by
  intro t hm hs
  rcases h.accounted t hm hs with old | ⟨r, hr, -⟩ | ended
  · exact .inl old
  · rw [h.reachable.runs_of_requeueing hc] at hr
    cases hr
  · exact .inr ended

/-- While a task is in flight nothing is put into the queue. -/
theorem Floor.Moves.queued (hm : Floor.Moves u f new f') (reach : Reachable u f.state)
    (busy : f.state.runs ≠ [] ∨ f'.state.runs ≠ []) :
    ∀ t ∈ f'.book.tasks, t.status = .queued → t ∈ f.book.tasks := by
  intro t ht queued
  cases hm with
  | event | finds => exact ht
  | writes hr hq hb =>
    rcases TaskBook.mem_of_update? hb ht with old | ⟨-, hs⟩
    · exact old
    · have faithful := reach.faithful _ (List.mem_of_find?_eq_some hr)
      exact absurd (hs ▸ queued) (faithful.status_ne_queued hq)
  | requeues hc =>
    -- The only act that puts tasks back, and no run is live while its start is under way.
    have none := reach.runs_of_requeueing hc
    rcases busy with busy | busy
    · exact absurd none busy
    · exact absurd none busy

/-- Whenever a start has asked for stranded tasks to be put back, no run is live and none begins
until it is answered or given up. What it can put back was in progress when the book was opened, or
belonged to a run that has ended; and nothing is put into the queue while a task is in flight. -/
theorem requeue_spares_live_work (u : Setup) (b : TaskBook) :
    (∀ s e s₁ effects c rest s₂, Reachable u s → s.step? u e = some (s₁, effects) →
      .requeue c ∈ effects → Leads u s₁ rest s₂ → Awaits c rest →
        s₂.runs = [] ∧ ∀ o ∈ rest, ∀ n, .beginRun n ∉ o.effects) ∧
    (∀ past f a new f', Unfolds u b past f → f.act? u a = some (new, f') →
      (∀ c, a = .requeue c → f.state.runs = [] ∧
        ∀ t ∈ f.book.tasks, t.status = .inProgress →
          (∃ t₀ ∈ b.tasks, t₀.id = t.id ∧ t₀.status = .inProgress) ∨ Ended u b past t.id) ∧
      (f.state.runs ≠ [] ∨ f'.state.runs ≠ [] →
        ∀ t ∈ f'.book.tasks, t.status = .queued → t ∈ f.book.tasks)) := by
  constructor
  · intro s e s₁ effects c rest s₂ reach hs asked hl awaits
    cases (Transition.of_step? hs).cause asked with
    | requeues idle requeueing =>
      exact (reach.leads (.head hs (.refl s₁))).undisturbed_of_leads requeueing hl awaits
  · intro past f a new f' h ha
    refine ⟨?_, (Floor.Moves.of_act? ha).queued h.reachable⟩
    rintro c rfl
    simp only [Floor.act?] at ha
    split at ha <;> cases ha
    rename_i hc
    exact ⟨h.reachable.runs_of_requeueing hc, h.stranded hc⟩

/-- A task whose run could not record how it ended, and a start that asks for it to be put back. -/
def strandedActs : List Act := twiceActs.take 17

def strandedFloor : Floor :=
  ((Floor.acts? plainSetup [] (.opened plainBook) strandedActs).getD ([], .opened plainBook)).2

theorem unfolds_strandedFloor : Unfolds plainSetup plainBook strandedActs strandedFloor := by
  have acts : Floor.acts? plainSetup [] (.opened plainBook) strandedActs =
      some ([.invoked "t-1"], strandedFloor) := rfl
  exact .of_acts? strandedActs .opened acts

def requeueingState : State :=
  { State.initial with
    lifecycle := .starting
    calls := [(0, .requeueing)] }

/-- A poll that turns back because the executor is not running yet. -/
def idlePoll : List Occurrence :=
  [⟨.poll 1, []⟩, ⟨.looked 1, []⟩, ⟨.left 1, [.returned 1 .polled]⟩]

theorem awaits_idlePoll : Awaits 0 idlePoll := by
  intro o ho
  simp only [idlePoll, List.mem_cons, List.not_mem_nil, or_false] at ho
  rcases ho with rfl | rfl | rfl
  · exact ⟨nofun, nofun⟩
  · exact ⟨nofun, nofun⟩
  · exact ⟨nofun, nofun⟩

theorem requeue_spares_live_work_stranded :
    (requeueingState.runs = [] ∧ ∀ o ∈ idlePoll, ∀ n, .beginRun n ∉ o.effects) ∧
      (∃ t ∈ strandedFloor.book.tasks, t.status = .inProgress) ∧
        strandedFloor.state.runs = [] ∧
          ∀ t ∈ strandedFloor.book.tasks, t.status = .inProgress →
            (∃ t₀ ∈ plainBook.tasks, t₀.id = t.id ∧ t₀.status = .inProgress) ∨
              Ended plainSetup plainBook strandedActs t.id := by
  have spares := requeue_spares_live_work plainSetup plainBook
  have started : Reachable plainSetup { State.initial with
      lifecycle := .starting
      calls := [(0, .preparing)] } := ⟨_, .of_steps? [.start 0] rfl⟩
  have waits : Leads plainSetup requeueingState idlePoll requeueingState :=
    .of_steps? [.poll 1, .looked 1, .left 1] rfl
  refine ⟨?_, ⟨_, List.mem_cons_self, rfl⟩, ?_⟩
  · exact spares.1 _ (.prepared 0 (.ok ())) _ _ 0 _ _ started rfl List.mem_cons_self waits
      awaits_idlePoll
  · exact (spares.2 _ _ (.requeue 2) _ _ unfolds_strandedFloor rfl).1 2 rfl

end Foreman.Executor

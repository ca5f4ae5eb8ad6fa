import Foreman.Proofs.Executor.Floor

namespace Foreman.Executor

variable {u : Setup} {b : TaskBook} {s s' : State} {f f' : Floor}

/-- Whether the agent was set to work on a task that has not been put back since. -/
def Spent (id : String) : List Deed → Prop
  | [] => False
  | .invoked other :: log => other = id ∨ Spent id log
  | .requeued _ ids :: log => id ∉ ids ∧ Spent id log

theorem requeued_of_not_spent {id : String}
    (h : ¬ Spent id (between ++ .invoked id :: before)) :
    ∃ c ids, .requeued c ids ∈ between ∧ id ∈ ids := by
  induction between with
  | nil => exact (h (.inl rfl)).elim
  | cons d between ih =>
    cases d with
    | invoked other =>
      obtain ⟨c, ids, hm, hid⟩ := ih fun spent => h (.inr spent)
      exact ⟨c, ids, List.mem_cons_of_mem _ hm, hid⟩
    | requeued c ids =>
      by_cases hid : id ∈ ids
      · exact ⟨c, ids, List.mem_cons_self .., hid⟩
      · obtain ⟨c, ids, hm, hid⟩ := ih fun spent => h ⟨hid, spent⟩
        exact ⟨c, ids, List.mem_cons_of_mem _ hm, hid⟩

namespace Floor

/-- The agent is set to work by an answer that marks the task of a live run. -/
theorem deeds_cases (u : Setup) (f : Floor) (e : Event) :
    f.deeds u e = [] ∨
      ∃ n r, e = .replied n (.written (.ok ())) ∧ f.state.run? n = some r ∧
        f.deeds u e = [.invoked r.task.id] ∧ r.stage = .marking ∧
          (r.stage.next u.policy r.task (.written (.ok ()))).1 = .working := by
  cases e with
  | replied n reply =>
    cases hr : f.state.run? n with
    | none => simp [deeds, hr]
    | some r =>
      by_cases begins : r.stage ≠ .working ∧
          (r.stage.next u.policy r.task reply).1 = .working
      · obtain ⟨marking, rfl⟩ := Run.Stage.marked_of_next_working begins.2 begins.1
        refine .inr ⟨n, r, rfl, hr, ?_, marking, begins.2⟩
        simp only [deeds, hr]
        rw [if_pos begins]
      · refine .inl ?_
        simp only [deeds, hr]
        rw [if_neg begins]
  | _ => exact .inl rfl

theorem mem_found_of_allows (h : f.allows (.fetched c (.ok t)) = true) : (c, t) ∈ f.found :=
  List.contains_iff_mem.1 h

theorem mem_written_of_allows (h : f.allows (.replied n (.written (.ok ()))) = true) :
    n ∈ f.written :=
  List.contains_iff_mem.1 h

/-- A run that is marking its task was marking it before, or the task was found for it. -/
theorem marking_cases (flight : f.state.Flight) (allowed : f.allows e = true)
    (ht : Transition u f.state e s effects) (hr : r' ∈ s.runs) (hs : r'.stage = .marking) :
    f.deeds u e = [] ∧
      ((∃ r ∈ f.state.runs, r.stage = .marking ∧ r.task = r'.task) ∨
        ∃ c, (c, some r'.task) ∈ f.found) := by
  rcases flight.run_cases ht hr with ⟨r, hm, rfl⟩ | ⟨c, t, session, rfl, rfl⟩
  · have marking : r.stage = .marking := by
      unfold LiveRun.hears at hs
      split at hs
      · split at hs
        · exact Run.Stage.marking_of_next hs
        · exact hs
      · exact hs
    refine ⟨?_, .inl ⟨r, hm, marking, r.task_hears.symm⟩⟩
    rcases deeds_cases u f e with none | ⟨n, r₁, rfl, hr₁, -, -, working⟩
    · exact none
    · obtain ⟨hn, he, -⟩ := flight.run?_eq hr₁
      rw [he, List.mem_singleton] at hm
      subst hm hn
      rw [LiveRun.hears, if_pos rfl] at hs
      rw [working] at hs
      cases hs
  · exact ⟨rfl, .inr ⟨c, mem_found_of_allows allowed⟩⟩

end Floor

/-- What ties the queue to the work done so far: a task that is spent is not in it, nor is one whose
run has marked it; a task found for a poll is. -/
structure Sound (b : TaskBook) (log : List Deed) (f : Floor) : Prop where
  keys : f.book.keys = b.keys
  found : (c, some t) ∈ f.found →
    f.state.call? c = some .fetching ∧ f.book.status? t.id = some .queued
  written : n ∈ f.written →
    ∃ r ∈ f.state.runs, r.number = n ∧ f.book.status? r.task.id ≠ some .queued
  marking : r ∈ f.state.runs → r.stage = .marking → ¬ Spent r.task.id log
  spent {id : String} : Spent id log → f.book.status? id ≠ some .queued

theorem Sound.event (h : Sound b log f) (reach : Reachable u f.state) (allowed : f.allows e = true)
    (ht : Transition u f.state e s effects) : Sound b (f.deeds u e ++ log) (f.after e s) where
  keys := h.keys
  found {c t} hm := by
    obtain ⟨hf, hc⟩ := List.mem_filter.1 hm
    exact ⟨of_decide_eq_true hc, (h.found hf).2⟩
  written {n} hm := by
    obtain ⟨hw, unsettled⟩ := List.mem_filter.1 hm
    obtain ⟨r, hr, rfl, hs⟩ := h.written hw
    rcases reach.flight.step_cases hr ht with ⟨-, hr'⟩ | ⟨rfl, -, -⟩
    · refine ⟨_, hr', r.number_hears, ?_⟩
      rw [r.task_hears]
      exact hs
    · simp [Floor.settles?] at unsettled
  marking {r'} hr hs := by
    obtain ⟨none, hr | ⟨c, hf⟩⟩ := Floor.marking_cases reach.flight allowed ht hr hs
    · obtain ⟨r, hr, hs, same⟩ := hr
      rw [none, ← same]
      exact h.marking hr hs
    · rw [none]
      exact fun spent => h.spent spent (h.found hf).2
  spent {id} spent := by
    rcases f.deeds_cases u e with none | ⟨n, r, rfl, hr, one, -, -⟩
    · rw [none] at spent
      exact h.spent spent
    · rw [one] at spent
      rcases spent with rfl | spent
      · obtain ⟨r₁, hr₁, hn, hs⟩ := h.written (Floor.mem_written_of_allows allowed)
        obtain ⟨-, he, -⟩ := reach.flight.run?_eq hr
        rw [he, List.mem_singleton] at hr₁
        subst hr₁
        exact hs
      · exact h.spent spent

theorem Sound.opened (b : TaskBook) : Sound b [] (.opened b) where
  keys := rfl
  found hm := (List.not_mem_nil hm).elim
  written hm := (List.not_mem_nil hm).elim
  marking hr := (List.not_mem_nil hr).elim
  spent := False.elim

theorem Sound.distinct (h : Sound b log f) (distinct : b.Distinct) : f.book.Distinct := by
  unfold TaskBook.Distinct
  rw [h.keys]
  exact distinct

theorem Sound.finds (h : Sound b log f) (distinct : b.Distinct)
    (hc : f.state.call? c = some .fetching) :
    Sound b log { f with found := (c, f.book.oldestQueued?) :: f.found } :=
  { h with
    found := fun {c' t} hm => by
      rcases List.mem_cons.1 hm with here | hm
      · obtain ⟨rfl, found⟩ := Prod.mk.inj here
        obtain ⟨ht, queued, -⟩ := TaskBook.oldestQueued?_spec found.symm
        refine ⟨hc, ?_⟩
        rw [(h.distinct distinct).status? ht, queued]
      · exact h.found hm }

/-- While a run is live no poll waits for a task, so that a write takes none away from it. -/
theorem Sound.writes (h : Sound b log f) (reach : Reachable u f.state)
    (hr : f.state.run? n = some r)
    (hq : r.stage.request? u.policy r.task = some (.write update))
    (hb : f.book.update? r.task.id update now = some book) :
    Sound b log { f with book := book, written := n :: f.written } := by
  obtain ⟨hn, live, hc⟩ := reach.flight.run?_eq hr
  have hm : r ∈ f.state.runs := List.mem_of_find?_eq_some hr
  have status := TaskBook.status?_update? hb
  have kept : some update.status ≠ some .queued := fun same =>
    (reach.faithful r hm).status_ne_queued hq (Option.some.inj same)
  exact {
    keys := (TaskBook.keys_update? hb).trans h.keys
    found := fun {c t} hf => by
      have idle := reach.undisturbed c _ (h.found hf).1 rfl
      rw [hc] at idle
      cases idle
    written := fun {n'} hw => by
      refine ⟨r, hm, ?_, ?_⟩
      · rcases List.mem_cons.1 hw with rfl | hw
        · exact hn
        · obtain ⟨r₁, hr₁, hn₁, -⟩ := h.written hw
          rw [live, List.mem_singleton] at hr₁
          rw [← hr₁, hn₁]
      · rw [status, if_pos rfl]
        exact kept
    marking := h.marking
    spent := fun {id} spent => by
      rw [status]
      split
      · exact kept
      · exact h.spent spent }

/-- While a start waits for the store no run is live. -/
theorem Sound.requeues (h : Sound b log f) (reach : Reachable u f.state)
    (hc : f.state.call? c = some .requeueing) :
    Sound b (.requeued c f.book.stranded :: log) { f with book := f.book.requeueStranded } := by
  have none : f.state.runs = [] :=
    reach.flight.runs_of_idle (reach.undisturbed c _ hc rfl)
  have idle {r : LiveRun} (hr : r ∈ f.state.runs) : False := by
    rw [none] at hr
    cases hr
  exact {
    keys := f.book.keys_requeueStranded.trans h.keys
    found := fun {c' t} hm => by
      obtain ⟨fetching, queued⟩ := h.found hm
      refine ⟨fetching, ?_⟩
      rw [TaskBook.status?_requeueStranded, queued]
      rfl
    written := fun {n} hm => by
      obtain ⟨r, hr, -⟩ := h.written hm
      exact (idle hr).elim
    marking := fun {r} hr => (idle hr).elim
    spent := fun {id} spent queued => by
      rcases TaskBook.requeueStranded_queued queued with queued | stranded
      · exact h.spent spent.2 queued
      · exact spent.1 (TaskBook.mem_stranded stranded) }

theorem Sound.step (h : Sound b log f) (distinct : b.Distinct) (reach : Reachable u f.state)
    (hm : Floor.Moves u f new f') : Sound b (new ++ log) f' := by
  cases hm with
  | event allowed hs => exact h.event reach allowed (.of_step? hs)
  | finds hc => exact h.finds distinct hc
  | writes hr hq hb => exact h.writes reach hr hq hb
  | requeues hc => exact h.requeues reach hc

/-- Whether a queued task, if it is not the one named, comes after that. -/
def First (b book : TaskBook) (id : String) : Prop :=
  ∀ {other : String}, book.status? other = some .queued → other = id ∨ b.Precedes id other

def Deed.invoked? : Deed → Option String
  | .invoked id => some id
  | .requeued .. => none

/-- How the work done so far lies to the queue as long as nothing is put back. -/
structure InOrder (b : TaskBook) (log : List Deed) (f : Floor) : Prop where
  found : (c, some t) ∈ f.found → First b f.book t.id
  marking : r ∈ f.state.runs → r.stage = .marking →
    First b f.book r.task.id ∧ ∀ id, .invoked id ∈ log → b.Precedes id r.task.id
  invoked {id other : String} : .invoked id ∈ log → f.book.status? other = some .queued →
    b.Precedes id other
  sorted : (log.filterMap Deed.invoked?).Pairwise fun later earlier => b.Precedes earlier later

theorem InOrder.opened (b : TaskBook) : InOrder b [] (.opened b) where
  found hm := (List.not_mem_nil hm).elim
  marking hr := (List.not_mem_nil hr).elim
  invoked hm := (List.not_mem_nil hm).elim
  sorted := .nil

theorem InOrder.event (h : InOrder b log f) (sound : Sound b log f) (reach : Reachable u f.state)
    (allowed : f.allows e = true) (ht : Transition u f.state e s effects) :
    InOrder b (f.deeds u e ++ log) (f.after e s) := by
  have marking {r' : LiveRun} (hr : r' ∈ s.runs) (hs : r'.stage = .marking) :
      First b f.book r'.task.id ∧ ∀ id, .invoked id ∈ f.deeds u e ++ log →
        b.Precedes id r'.task.id := by
    obtain ⟨none, hr | ⟨c, hf⟩⟩ := Floor.marking_cases reach.flight allowed ht hr hs
    · obtain ⟨r, hr, hs, same⟩ := hr
      rw [none, ← same]
      exact h.marking hr hs
    · rw [none]
      exact ⟨h.found hf, fun id hm => h.invoked hm (sound.found hf).2⟩
  rcases f.deeds_cases u e with none | ⟨n, r, rfl, hr, one, hs, -⟩
  · rw [none] at marking ⊢
    exact { h with
      found := fun hm => h.found (List.mem_filter.1 hm).1
      marking := marking }
  · have hm : r ∈ f.state.runs := List.mem_of_find?_eq_some hr
    obtain ⟨first, last⟩ := h.marking hm hs
    have spent : Spent r.task.id (f.deeds u (.replied n (.written (.ok ()))) ++ log) := by
      rw [one]
      exact .inl rfl
    have gone := (sound.event reach allowed ht).spent spent
    refine ⟨fun hm => h.found (List.mem_filter.1 hm).1, marking, ?_, ?_⟩
    · intro id other hm queued
      rw [one] at hm
      rcases List.mem_cons.1 hm with same | hm
      · cases same
        rcases first queued with rfl | precedes
        · exact (gone queued).elim
        · exact precedes
      · exact h.invoked hm queued
    · rw [one]
      refine .cons (fun id hid => last id ?_) h.sorted
      obtain ⟨d, hd, hi⟩ := List.mem_filterMap.1 hid
      cases d with
      | invoked id' =>
        cases hi
        exact hd
      | requeued => cases hi

/-- Whether no start has put a task back. -/
def NothingRequeued (log : List Deed) : Prop := ∀ c ids, .requeued c ids ∈ log → ids = []

theorem InOrder.step (h : InOrder b log f) (sound : Sound b log f) (reach : Reachable u f.state)
    (hm : Floor.Moves u f new f') (still : NothingRequeued new) : InOrder b (new ++ log) f' := by
  cases hm with
  | event allowed hs => exact h.event sound reach allowed (.of_step? hs)
  | @finds c hc =>
    refine { h with found := fun {c' t} hm => ?_ }
    rcases List.mem_cons.1 hm with here | hm
    · intro other queued
      obtain ⟨rfl, found⟩ := Prod.mk.inj here
      obtain ⟨s, hs, rfl, status⟩ := TaskBook.exists_mem_of_status? queued
      rcases (TaskBook.oldestQueued?_spec found.symm).2.2 s hs status with rfl | precedes
      · exact .inl rfl
      · exact .inr ((TaskBook.precedes_congr sound.keys).1 precedes)
    · exact h.found hm
  | @writes n r update now book hr hq hb =>
    have kept : update.status ≠ .queued :=
      (reach.faithful r (List.mem_of_find?_eq_some hr)).status_ne_queued hq
    have queue {other : String} (queued : book.status? other = some .queued) :
        f.book.status? other = some .queued := by
      rw [TaskBook.status?_update? hb] at queued
      split at queued
      · exact (kept (Option.some.inj queued)).elim
      · exact queued
    constructor
    · exact fun hm other queued => h.found hm (queue queued)
    · intro r hr hs
      obtain ⟨first, last⟩ := h.marking hr hs
      exact ⟨fun queued => first (queue queued), last⟩
    · exact fun hm queued => h.invoked hm (queue queued)
    · exact h.sorted
  | @requeues c hc =>
    have none : f.book.stranded = [] := still c _ (List.mem_singleton_self _)
    rw [TaskBook.requeueStranded_eq_self none]
    have earlier {id : String} (hm : .invoked id ∈ [.requeued c f.book.stranded] ++ log) :
        .invoked id ∈ log := by simpa using hm
    refine ⟨h.found, fun hr hs => ?_, fun hm => h.invoked (earlier hm), h.sorted⟩
    obtain ⟨first, last⟩ := h.marking hr hs
    exact ⟨first, fun id hm => last id (earlier hm)⟩

theorem Happens.inOrder (distinct : b.Distinct) (h : Happens u b log f)
    (still : NothingRequeued log) : InOrder b log f := by
  have keep := h.keeps
    (P := fun log f =>
      Reachable u f.state ∧ Sound b log f ∧ (NothingRequeued log → InOrder b log f))
    (fun ⟨reach, sound, h⟩ hm => ⟨reach.moves hm, sound.step distinct reach hm, fun still => ?_⟩)
    ⟨.initial, .opened b, fun _ => .opened b⟩
  · exact keep.2.2 still
  · have before := h fun c ids hd => still c ids (List.mem_append_right _ hd)
    exact before.step sound reach hm fun c ids hd =>
      still c ids (List.mem_append_left _ hd)

/-- Whether between any two times that the agent was set to work on a task, a start has put the task
back. -/
def Refreshed (log : List Deed) : Prop :=
  ∀ after between before id, log = after ++ .invoked id :: (between ++ .invoked id :: before) →
    ∃ c ids, .requeued c ids ∈ between ∧ id ∈ ids

theorem Refreshed.cons (h : Refreshed log) (new : ∀ id, d = .invoked id → ¬ Spent id log) :
    Refreshed (d :: log) := by
  intro after between before id he
  cases after with
  | nil =>
    obtain ⟨hd, rfl⟩ := List.cons.inj he
    exact requeued_of_not_spent (new id hd)
  | cons a after => exact h after between before id (List.cons.inj he).2

/-- An act invokes the agent only for a task that is not spent. -/
theorem Sound.refreshed (h : Sound b log f) (hm : Floor.Moves u f new f') (old : Refreshed log) :
    Refreshed (new ++ log) := by
  cases hm with
  | @event e s effects allowed hs =>
    rcases f.deeds_cases u e with none | ⟨n, r, rfl, hr, one, marking, -⟩
    · rw [none]
      exact old
    · rw [one]
      refine old.cons fun id same => ?_
      cases same
      exact h.marking (List.mem_of_find?_eq_some hr) marking
  | finds | writes => exact old
  | requeues => exact old.cons nofun

/-- With distinct ids the agent is set to work on a task again only if a start has put the task back
in between, and tasks are taken in the order of creation and insertion while nothing is put back. -/
theorem Happens.no_repetition (distinct : b.Distinct) (h : Happens u b log f) :
    Refreshed log ∧ (NothingRequeued log →
      (log.filterMap Deed.invoked?).Pairwise fun later earlier => b.Precedes earlier later) := by
  refine ⟨?_, fun still => (h.inOrder distinct still).sorted⟩
  have keep := h.keeps
    (P := fun log f => Reachable u f.state ∧ Sound b log f ∧ Refreshed log)
    (fun ⟨reach, sound, old⟩ hm =>
      ⟨reach.moves hm, sound.step distinct reach hm, sound.refreshed hm old⟩)
    ⟨.initial, .opened b, ?_⟩
  · exact keep.2.2
  · intro after between before id he
    simp at he

def plainBook : TaskBook := ⟨[Run.plainTask]⟩

theorem distinct_plainBook : plainBook.Distinct := List.pairwise_singleton _ _

/-- A task whose run cannot record how it ended, and that is put back and taken again. -/
def twiceActs : List Act :=
  [.event (.start 0), .event (.prepared 0 (.ok ())), .event (.requeued 0 (.ok 0)),
    .event (.poll 1), .event (.looked 1), .event (.asked 1), .find 1,
    .event (.fetched 1 (.ok (some Run.plainTask))), .event (.left 1),
    .write 0 Run.plainTask.created, .event (.replied 0 (.written (.ok ()))),
    .event (.replied 0 (.worked (.panicked .other))),
    .event (.replied 0 (.written (.panicked .other))), .event (.finished 0), .event .stop,
    .event (.start 2), .event (.prepared 2 (.ok ())), .requeue 2, .event (.requeued 2 (.ok 1)),
    .event (.poll 3), .event (.looked 3), .event (.asked 3), .find 3,
    .event (.fetched 3 (.ok (some Run.plainTask))), .event (.left 3),
    .write 1 Run.plainTask.created, .event (.replied 1 (.written (.ok ())))]

def twiceFloor : Floor :=
  ((Floor.acts? plainSetup [] (.opened plainBook) twiceActs).getD ([], .opened plainBook)).2

def twiceLog : List Deed := [.invoked "t-1", .requeued 2 ["t-1"], .invoked "t-1"]

theorem happens_twiceLog : Happens plainSetup plainBook twiceLog twiceFloor :=
  .of_acts? twiceActs .opened rfl

theorem no_repetition_twiceLog :
    (plainBook.Distinct ∧ Happens plainSetup plainBook twiceLog twiceFloor) ∧
      Refreshed twiceLog ∧ (NothingRequeued twiceLog →
        (twiceLog.filterMap Deed.invoked?).Pairwise fun later earlier =>
          plainBook.Precedes earlier later) :=
  ⟨⟨distinct_plainBook, happens_twiceLog⟩, happens_twiceLog.no_repetition distinct_plainBook⟩

end Foreman.Executor

import Foreman.Proofs.Executor.Barrier
import Foreman.Proofs.Executor.Prompt
import Foreman.Proofs.Store.Concurrency

/-!
# Polls

One poll at a time asks the store, and it sets out to ask when it sees the executor run and be idle.
It has let go of the state by the time it asks. Where calls are interrupted only while they wait,
nothing comes between the look and the question. Where they run on several threads, a stop may; but
nothing orders it before the question, and the same comes about, each call doing the same as before,
as if the question had been put first.
-/

namespace Foreman.Executor

/-- The poll whose question to the store is settled, by an answer or because it is given up. -/
def Event.settled? : Event → Option Nat
  | .fetched c _ | .dropped c => some c
  | _ => none

def Effect.fetch? : Effect → Option Nat
  | .fetch c => some c
  | _ => none

/-- The polls that have asked the store, and whose questions are not settled. -/
def outstanding (past : List Occurrence) : List Nat :=
  past.foldl (fun asked o => asked.filter (o.event.settled? ≠ some ·) ++
    o.effects.filterMap Effect.fetch?) []

theorem outstanding_concat (past : List Occurrence) (o : Occurrence) :
    outstanding (past ++ [o]) =
      (outstanding past).filter (o.event.settled? ≠ some ·) ++ o.effects.filterMap Effect.fetch? :=
  List.foldl_append ..

namespace Call

/-- Whether the call is a poll that waits for the store. -/
def isFetching : Call → Bool
  | fetching => true
  | _ => false

theorem isFetching_iff {k : Call} : k.isFetching = true ↔ k = .fetching := by
  cases k <;> simp [isFetching]

end Call

variable {s s' : State} {past : List Occurrence}

theorem State.callIs_isFetching :
    s.callIs Call.isFetching c = true ↔ s.call? c = some .fetching := by
  cases hc : s.call? c <;> simp [State.callIs, hc, Call.isFetching_iff]

/-- What a step does to the polls that wait for the store. -/
inductive Inquiry (s : State) (e : Event) (s' : State) (effects : List Effect) : Prop where
  | kept (polls : ∀ d, s'.callIs Call.isFetching d = s.callIs Call.isFetching d)
      (unsettled : e.settled? = none) (silent : effects.filterMap Effect.fetch? = [])
  | asks (he : e = .asked c) (hc : s.call? c = some .asking)
      (polls : ∀ d,
        s'.callIs Call.isFetching d = if d = c then true else s.callIs Call.isFetching d)
      (asked : effects.filterMap Effect.fetch? = [c])
  | settles (he : e.settled? = some c)
      (polls : ∀ d,
        s'.callIs Call.isFetching d = if d = c then false else s.callIs Call.isFetching d)
      (silent : effects.filterMap Effect.fetch? = [])

theorem Transition.inquiry (ht : Transition u s e s' effects) : Inquiry s e s' effects := by
  cases ht with
  | fetchBegins hc => exact .asks rfl hc (State.callIs_changeCall _ _ _ · _) rfl
  | checkedOut | nothingTaken => exact .settles rfl (State.callIs_changeCall _ _ _ · _) rfl
  | startDropped | pollDropped | waitDropped =>
    exact .settles rfl (State.callIs_endCall _ _ _ ·) rfl
  | startBegins free | pollEnters free | waitRegisters free =>
    exact .kept (State.callIs_beginCall_of_not free rfl) rfl rfl
  | requeueSkipped hc | requeueBegins hc | idleSeen hc | fetchSkipped hc | lapsed hc =>
    exact .kept (State.callIs_changeCall_of_eq hc rfl) rfl rfl
  | prepareFails hc | requeued hc | launched hc | pollLeaves hc | woken hc | expired hc =>
    exact .kept (State.callIs_endCall_of_not hc rfl) rfl rfl
  | stopped =>
    refine .kept (fun _ => rfl) rfl ?_
    cases s.poller <;> rfl
  | replied =>
    refine .kept (fun _ => rfl) rfl ?_
    split <;> rfl
  | startRefused | stopRefused | pollTurnsBack | waitEnds | finished | elapsed =>
    exact .kept (fun _ => rfl) rfl rfl

/-- The polls that wait for the store are those with a question that is not settled. -/
structure Asked (past : List Occurrence) (s : State) : Prop where
  mem_iff : ∀ c, c ∈ outstanding past ↔ s.callIs Call.isFetching c = true
  one : (outstanding past).length ≤ 1

/-- A poll that is about to ask holds the gate, so that no other one waits for the store. -/
theorem Asked.none_of_asking (h : Asked past s) (gated : s.Gated)
    (hc : s.call? c = some .asking) : outstanding past = [] := by
  refine List.eq_nil_iff_forall_not_mem.2 fun d hd => ?_
  have fetching := State.callIs_isFetching.1 ((h.mem_iff d).1 hd)
  have holds := (gated c).1 (State.callIs_of_call? hc)
  rw [(gated d).1 (State.callIs_of_call? fetching), Option.some.injEq] at holds
  rw [holds, hc] at fetching
  cases fetching

theorem Asked.step (h : Asked past s) (gated : s.Gated) (ht : Transition u s e s' effects) :
    Asked (past ++ [⟨e, effects⟩]) s' := by
  cases ht.inquiry with
  | kept polls unsettled silent =>
    have same : outstanding (past ++ [⟨e, effects⟩]) = outstanding past := by
      simp [outstanding_concat, unsettled, silent]
    refine ⟨fun c => ?_, ?_⟩
    · rw [same, polls]
      exact h.mem_iff c
    · rw [same]
      exact h.one
  | @asks c he hc polls asked =>
    have now : outstanding (past ++ [⟨e, effects⟩]) = [c] := by
      simp [outstanding_concat, asked, h.none_of_asking gated hc]
    refine ⟨fun d => ?_, ?_⟩
    · have none : s.callIs Call.isFetching d = false := by
        rw [← Bool.not_eq_true, ← h.mem_iff, h.none_of_asking gated hc]
        exact List.not_mem_nil
      rw [now, polls, none]
      simp
    · rw [now]
      exact Nat.le_refl 1
  | @settles c he polls silent =>
    have less : outstanding (past ++ [⟨e, effects⟩]) = (outstanding past).filter (· ≠ c) := by
      simp [outstanding_concat, he, silent, eq_comm]
    refine ⟨fun d => ?_, ?_⟩
    · rw [less, polls, List.mem_filter, h.mem_iff]
      by_cases hd : d = c <;> simp [hd]
    · rw [less]
      exact Nat.le_trans (List.length_filter_le ..) h.one

theorem Leads.asked (h : Leads u .initial past s) : Asked past s := by
  have keep := h.keeps_past (P := fun past s => s.Gated ∧ Asked past s)
    (fun ⟨gated, h⟩ ht => ⟨gated.step ht, h.step gated ht⟩)
    ⟨State.gated_initial, fun _ => ⟨nofun, nofun⟩, Nat.zero_le 1⟩
  exact keep.2

/-- The poll has seen the executor run and be idle, and has done nothing since. -/
structure SawIdle (u : Setup) (c : Nat) (past since : List Occurrence) : Prop where
  saw : ∃ before s, past = before ++ ⟨.looked c, []⟩ :: since ∧ Leads u .initial before s ∧
    s.lifecycle = .running ∧ s.current = none
  rests : ∀ o ∈ since, o.event.caller? ≠ some c

theorem SawIdle.concat (h : SawIdle u c past since) (other : o.event.caller? ≠ some c) :
    SawIdle u c (past ++ [o]) (since ++ [o]) := by
  obtain ⟨⟨before, s, rfl, leads, idle⟩, rests⟩ := h
  refine ⟨⟨before, s, List.append_assoc .., leads, idle⟩, ?_⟩
  exact List.forall_mem_append.2 ⟨rests, List.forall_mem_singleton.2 other⟩

/-- Nothing but a stop ends a session. -/
theorem Transition.stop_of_running (ht : Transition u s e s' effects) (starts : s.Starts)
    (before : s.lifecycle = .running) (after : s'.lifecycle ≠ .running) : e = .stop := by
  cases ht.control with
  | kept same => exact absurd (same.trans before) after
  | begins _ stopped => cases before.symm.trans stopped
  | fails hc => cases before.symm.trans (starts.starting hc).1
  | launches _ _ running => exact absurd running after
  | stops he => exact he

/-- A poll that is about to ask has seen the executor run, and it still does if no stop has come
in between. -/
def Sighted (u : Setup) (past : List Occurrence) (s : State) : Prop :=
  ∀ c, s.call? c = some .asking → ∃ since, SawIdle u c past since ∧
    (s.lifecycle = .running ∨ ∃ o ∈ since, o.event = .stop)

theorem Sighted.step (h : Sighted u past s) (leads : Leads u .initial past s)
    (ht : Transition u s e s' effects) : Sighted u (past ++ [⟨e, effects⟩]) s' := by
  intro c hc
  rcases ht.asking_cases hc with ⟨before, other⟩ | ⟨rfl, looking, idle, rfl⟩
  · obtain ⟨since, saw, stopped⟩ := h c before
    refine ⟨_, saw.concat other, ?_⟩
    by_cases after : s'.lifecycle = .running
    · exact .inl after
    · rcases stopped with running | ⟨o, ho, stop⟩
      · have stop := ht.stop_of_running (Reachable.starts ⟨past, leads⟩) running after
        exact .inr ⟨_, List.mem_append_right _ (List.mem_singleton_self _), stop⟩
      · exact .inr ⟨o, List.mem_append_left _ ho, stop⟩
  · have saw : SawIdle u c (past ++ [⟨.looked c, []⟩]) [] :=
      ⟨⟨past, s, rfl, leads, State.isIdle_iff.1 idle⟩, fun _ hm => (List.not_mem_nil hm).elim⟩
    refine ⟨[], saw, .inl ?_⟩
    cases ht with
    | idleSeen | fetchSkipped => exact (State.isIdle_iff.1 idle).1

end Foreman.Executor

import Foreman.Proofs.Executor.Calls
import Foreman.Proofs.Executor.SingleFlight
import Foreman.Proofs.Task.Book

/-!
# An executor and its task book

Here the store of an executor is a task book that no one else writes to. A call on it takes effect
at one moment while it is awaited: a poll is told what the oldest queued task was at that moment, a
write that is said to have succeeded was carried out, and any other may or may not have been.
-/

namespace Foreman.Executor

structure Floor where
  state : State
  book : TaskBook
  /-- What was found for polls that wait for it. -/
  found : List (Nat × Option Task)
  /-- The runs whose awaited write has been carried out. -/
  written : List Nat

/-- What counts in the history of a floor. -/
inductive Deed where
  /-- The agent is asked to work on a task. -/
  | invoked (id : String)
  /-- A start has put tasks in progress back into the queue. -/
  | requeued (call : Nat) (ids : List String)
deriving DecidableEq

/-- What happens to the executor, or in the store. -/
inductive Act where
  | event (e : Event)
  | find (call : Nat)
  | write (run : Nat) (now : Instant)
  | requeue (call : Nat)

namespace Floor

def opened (b : TaskBook) : Floor := ⟨.initial, b, [], []⟩

/-- Whether the store can have given the answer that an event brings. -/
def allows (f : Floor) : Event → Bool
  | .fetched c (.ok t) => f.found.contains (c, t)
  | .replied n (.written (.ok ())) => f.written.contains n
  | _ => true

/-- The agent is asked when a run comes to the stage in which it is at work. -/
def deeds (u : Setup) (f : Floor) : Event → List Deed
  | .replied n reply =>
    match f.state.run? n with
    | some r =>
      if r.stage ≠ .working ∧ (r.stage.next u.policy r.task reply).1 = .working then
        [.invoked r.task.id]
      else []
    | none => []
  | _ => []

/-- An answer to a run settles the write it awaited, and its end whatever it was still about. -/
def settles? : Event → Option Nat
  | .replied n _ | .finished n => some n
  | _ => none

/-- A poll that does not wait any more leaves what was found for it. -/
def after (f : Floor) (e : Event) (s : State) : Floor where
  state := s
  book := f.book
  found := f.found.filter fun (c, _) => s.call? c = some .fetching
  written := f.written.filter fun n => settles? e ≠ some n

def act? (u : Setup) (f : Floor) : Act → Option (List Deed × Floor)
  | .event e =>
    if f.allows e then (f.state.step? u e).map fun (s, _) => (f.deeds u e, f.after e s) else none
  | .find c =>
    if f.state.call? c = some .fetching then
      some ([], { f with found := (c, f.book.oldestQueued?) :: f.found })
    else none
  | .write n now =>
    (f.state.run? n).bind fun r =>
      match r.stage.request? u.policy r.task with
      | some (.write update) =>
        (f.book.update? r.task.id update now).map fun book =>
          ([], { f with book, written := n :: f.written })
      | _ => none
  | .requeue c =>
    if f.state.call? c = some .requeueing then
      some ([.requeued c f.book.stranded], { f with book := f.book.requeueStranded })
    else none

/-- The deeds of some acts, the latest first, and the floor after them. -/
def acts? (u : Setup) : List Deed → Floor → List Act → Option (List Deed × Floor)
  | log, f, [] => some (log, f)
  | log, f, a :: rest => (f.act? u a).bind fun (deeds, f') => acts? u (deeds ++ log) f' rest

end Floor

/-- One case for each way in which something can happen on a floor. -/
inductive Floor.Moves (u : Setup) (f : Floor) : List Deed → Floor → Prop where
  | event (allowed : f.allows e = true) (hs : f.state.step? u e = some (s, effects)) :
      Moves u f (f.deeds u e) (f.after e s)
  | finds (hc : f.state.call? c = some .fetching) :
      Moves u f [] { f with found := (c, f.book.oldestQueued?) :: f.found }
  | writes (hr : f.state.run? n = some r)
      (hq : r.stage.request? u.policy r.task = some (.write update))
      (hb : f.book.update? r.task.id update now = some b) :
      Moves u f [] { f with book := b, written := n :: f.written }
  | requeues (hc : f.state.call? c = some .requeueing) :
      Moves u f [.requeued c f.book.stranded] { f with book := f.book.requeueStranded }

theorem Floor.Moves.of_act? (h : act? u f a = some (new, f')) : Moves u f new f' := by
  cases a with
  | event e =>
    simp only [act?] at h
    split at h
    case isFalse => cases h
    case isTrue allowed =>
      obtain ⟨⟨s, effects⟩, hs, he⟩ := Option.map_eq_some_iff.1 h
      cases he
      exact .event allowed hs
  | find c =>
    simp only [act?] at h
    split at h <;> cases h
    exact .finds ‹_›
  | write n now =>
    obtain ⟨r, hr, h⟩ := Option.bind_eq_some_iff.1 h
    split at h
    case h_1 update hq =>
      obtain ⟨book, hb, he⟩ := Option.map_eq_some_iff.1 h
      cases he
      exact .writes hr hq hb
    case h_2 => cases h
  | requeue c =>
    simp only [act?] at h
    split at h <;> cases h
    exact .requeues ‹_›

/-- From a book and an executor that has not been used, a floor has come about by these deeds, of
which the latest comes first. -/
inductive Happens (u : Setup) (b : TaskBook) : List Deed → Floor → Prop where
  | opened : Happens u b [] (.opened b)
  | act (before : Happens u b log f) (ha : Floor.act? u f a = some (new, f')) :
      Happens u b (new ++ log) f'

variable {s s' : State} {f f' : Floor}

theorem Happens.of_acts? (acts : List Act) (before : Happens u b log f)
    (h : Floor.acts? u log f acts = some (log', f')) : Happens u b log' f' := by
  induction acts generalizing log f with
  | nil =>
    cases h
    exact before
  | cons a rest ih =>
    obtain ⟨⟨new, f₁⟩, ha, h⟩ := Option.bind_eq_some_iff.1 h
    exact ih (.act before ha) h

/-- What every act keeps of the deeds and the floor, all of them keep. -/
theorem Happens.keeps {P : List Deed → Floor → Prop}
    (keep : ∀ {log f new f'}, P log f → Floor.Moves u f new f' → P (new ++ log) f')
    (h : Happens u b log f) (ho : P [] (.opened b)) : P log f := by
  induction h with
  | opened => exact ho
  | act _ ha ih => exact keep ih (.of_act? ha)

theorem Reachable.moves (h : Reachable u f.state) (hm : Floor.Moves u f new f') :
    Reachable u f'.state := by
  cases hm with
  | event allowed hs => exact h.leads (.head hs (.refl _))
  | finds | writes | requeues => exact h

/-- Whether the call has seen that no task is in flight, and goes by it. -/
def Call.reliesOnIdle : Call → Bool
  | requeueing | asking | fetching => true
  | _ => false

namespace State

/-- No run is live while a poll is after a task, or a start has stranded tasks put back. -/
def Undisturbed (s : State) : Prop :=
  ∀ c k, s.call? c = some k → k.reliesOnIdle = true → s.current = none

theorem Undisturbed.step (h : s.Undisturbed) (starts : s.Starts) (gated : s.Gated)
    (ht : Transition u s e s' effects) : s'.Undisturbed := by
  intro d k hd hk
  cases ht.work with
  | kept _ current | hears _ _ _ current =>
    rw [current]
    rcases ht.entry hd with before | entry
    · exact h d k before hk
    · cases entry with
      | asking idle => exact (isIdle_iff.1 idle).2
      | fetching hc => exact h d .asking hc rfl
      | requeueing idle => exact idle
      | preparing | launching | looking | leaving | waiting | lapsed => cases hk
  | @takes c t session he idle fetching after =>
    -- The poll that takes a task is the only one under way, and no start is.
    exfalso
    have only (poll : s.callIs Call.isPoll d = true) : d = c := by
      have gate := (gated d).1 poll
      rw [(gated c).1 (callIs_of_call? fetching), Option.some.injEq] at gate
      exact gate.symm
    rcases ht.entry hd with before | entry
    · cases k with
      | asking | fetching =>
        rw [only (callIs_of_call? before), after] at hd
        cases hd
      | requeueing =>
        have starting := (starts.starting (callIs_of_call? before)).1
        rw [(isIdle_iff.1 idle).1] at starting
        cases starting
      | preparing | launching | looking | leaving | waiting | lapsed => cases hk
    · cases entry with
      | asking | fetching | requeueing => cases he
      | preparing | launching | looking | leaving | waiting | lapsed => cases hk
  | ends _ _ _ hs =>
    rw [hs]
    rfl

end State

theorem Reachable.undisturbed (h : Reachable u s) : s.Undisturbed := by
  have keep := h.keeps (P := fun s => s.Starts ∧ s.Gated ∧ s.Undisturbed)
    (fun ⟨starts, gated, h⟩ ht => ⟨starts.step ht, gated.step ht, h.step starts gated ht⟩)
    ⟨State.starts_initial, State.gated_initial, nofun⟩
  exact keep.2.2

theorem LiveRun.faithful_hears (h : r.stage.Faithful) : (hears u r e).stage.Faithful := by
  unfold hears
  split
  · split
    · exact Run.Stage.faithful_next h
    · exact h
  · exact h

/-- Every live run has a stage that writes its outcome's status. -/
def State.Faithful (s : State) : Prop := ∀ r ∈ s.runs, r.stage.Faithful

theorem State.Faithful.step (h : s.Faithful) (flight : s.Flight)
    (ht : Transition u s e s' effects) : s'.Faithful := by
  intro r' hr'
  rcases flight.run_cases ht hr' with ⟨r, hr, rfl⟩ | ⟨c, t, session, _, rfl⟩
  · exact LiveRun.faithful_hears (h r hr)
  · exact True.intro

theorem Reachable.faithful (h : Reachable u s) : s.Faithful := by
  have keep := h.keeps (P := fun s => s.Flight ∧ s.Faithful)
    (fun ⟨flight, h⟩ ht => ⟨flight.step ht, h.step flight ht⟩)
    ⟨State.flight_initial, fun _ hr => (List.not_mem_nil hr).elim⟩
  exact keep.2

end Foreman.Executor

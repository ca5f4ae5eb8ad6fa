import Foreman.Proofs.Executor.Floor

namespace Foreman.Executor

/-- The same state, but that some calls are elsewhere. -/
structure State.Shifted (moved : Nat → Option Call) (s t : State) : Prop where
  parts : t = { s with calls := t.calls }
  calls : ∀ d, t.call? d = (moved d).or (s.call? d)

namespace State.Shifted

variable {s t : State} {moved : Nat → Option Call}

theorem replace (h : Shifted moved s t) (own : moved c = none) (k : Option Call) (d : Nat) :
    (if d = c then k else t.call? d) = (moved d).or (if d = c then k else s.call? d) := by
  by_cases same : d = c
  · rw [if_pos same, if_pos same, same, own, Option.none_or]
  · rw [if_neg same, if_neg same, h.calls]

theorem beginCall (h : Shifted moved s t) (own : moved c = none) (k : Call) (d : Nat) :
    (t.beginCall c k).call? d = (moved d).or ((s.beginCall c k).call? d) := by
  rw [call?_beginCall, call?_beginCall]
  exact h.replace own (some k) d

theorem endCall (h : Shifted moved s t) (own : moved c = none) (d : Nat) :
    (t.endCall c).call? d = (moved d).or ((s.endCall c).call? d) := by
  rw [call?_endCall, call?_endCall]
  exact h.replace own none d

theorem changeCall (h : Shifted moved s t) (own : moved c = none) (k : Call) (d : Nat) :
    (t.changeCall c k).call? d = (moved d).or ((s.changeCall c k).call? d) := by
  rw [call?_changeCall, call?_changeCall]
  exact h.replace own (some k) d

end State.Shifted

/-- A step goes by the parts of the state and the call that takes it, and by no other call. -/
theorem Transition.shifted (ht : Transition u s e s' effects) (h : s.Shifted moved t)
    (own : ∀ c, e.caller? = some c → moved c = none) :
    ∃ t', Transition u t e t' effects ∧ s'.Shifted moved t' := by
  have same {c : Nat} {k : Option Call} (hk : s.call? c = k) (hc : e.caller? = some c) :
      t.call? c = k := by
    rw [h.calls, own c hc, Option.none_or, hk]
  have parts := h.parts
  generalize t.calls = l at parts
  subst parts
  cases ht with
  | startBegins free hs =>
    exact ⟨_, .startBegins (same free rfl) hs, rfl, h.beginCall (own _ rfl) _⟩
  | startRefused free hs => exact ⟨_, .startRefused (same free rfl) hs, h⟩
  | prepareFails hc => exact ⟨_, .prepareFails (same hc rfl), rfl, h.endCall (own _ rfl)⟩
  | requeueSkipped hc busy =>
    exact ⟨_, .requeueSkipped (same hc rfl) busy, rfl, h.changeCall (own _ rfl) _⟩
  | requeueBegins hc idle =>
    exact ⟨_, .requeueBegins (same hc rfl) idle, rfl, h.changeCall (own _ rfl) _⟩
  | requeued hc => exact ⟨_, .requeued (same hc rfl), rfl, h.endCall (own _ rfl)⟩
  | launched hc => exact ⟨_, .launched (same hc rfl), rfl, h.endCall (own _ rfl)⟩
  | stopped hs => exact ⟨_, .stopped hs, rfl, h.calls⟩
  | stopRefused hs => exact ⟨_, .stopRefused hs, h⟩
  | pollEnters free hg =>
    exact ⟨_, .pollEnters (same free rfl) hg, rfl, h.beginCall (own _ rfl) _⟩
  | pollTurnsBack free hg => exact ⟨_, .pollTurnsBack (same free rfl) hg, h⟩
  | idleSeen hc idle => exact ⟨_, .idleSeen (same hc rfl) idle, rfl, h.changeCall (own _ rfl) _⟩
  | fetchSkipped hc busy =>
    exact ⟨_, .fetchSkipped (same hc rfl) busy, rfl, h.changeCall (own _ rfl) _⟩
  | fetchBegins hc => exact ⟨_, .fetchBegins (same hc rfl), rfl, h.changeCall (own _ rfl) _⟩
  | checkedOut hc idle hn =>
    exact ⟨_, .checkedOut (same hc rfl) idle hn, rfl, h.changeCall (own _ rfl) _⟩
  | nothingTaken hc hp untaken =>
    exact ⟨_, .nothingTaken (same hc rfl) hp untaken, rfl, h.changeCall (own _ rfl) _⟩
  | pollLeaves hc => exact ⟨_, .pollLeaves (same hc rfl), rfl, h.endCall (own _ rfl)⟩
  | waitEnds free idle => exact ⟨_, .waitEnds (same free rfl) idle, h⟩
  | waitRegisters free busy =>
    exact ⟨_, .waitRegisters (same free rfl) busy, rfl, h.beginCall (own _ rfl) _⟩
  | woken hc told => exact ⟨_, .woken (same hc rfl) told, rfl, h.endCall (own _ rfl)⟩
  | lapsed hc late untold =>
    exact ⟨_, .lapsed (same hc rfl) late untold, rfl, h.changeCall (own _ rfl) _⟩
  | expired hc => exact ⟨_, .expired (same hc rfl), rfl, h.endCall (own _ rfl)⟩
  | startDropped hc hk => exact ⟨_, .startDropped (same hc rfl) hk, rfl, h.endCall (own _ rfl)⟩
  | pollDropped hc => exact ⟨_, .pollDropped (same hc rfl), rfl, h.endCall (own _ rfl)⟩
  | waitDropped hc => exact ⟨_, .waitDropped (same hc rfl), rfl, h.endCall (own _ rfl)⟩
  | replied hr => exact ⟨_, .replied hr, rfl, h.calls⟩
  | finished hr ended => exact ⟨_, .finished hr ended, rfl, h.calls⟩
  | elapsed => exact ⟨_, .elapsed, rfl, h.calls⟩

/-- A poll that is about to ask the store does nothing else before. -/
theorem Transition.asked_of_asking (ht : Transition u s e s' effects)
    (hc : s.call? c = some .asking) (he : e.caller? = some c) : e = .asked c := by
  cases ht with
  | fetchBegins =>
    cases he
    rfl
  | startBegins h | startRefused h | prepareFails h | requeueSkipped h | requeueBegins h
  | requeued h | launched h | pollEnters h | pollTurnsBack h | idleSeen h | fetchSkipped h
  | checkedOut h | nothingTaken h | pollLeaves h | waitEnds h | waitRegisters h | woken h
  | lapsed h | expired h | pollDropped h | waitDropped h =>
    cases he
    rw [hc] at h
    cases h
  | startDropped h hk =>
    cases he
    rw [hc] at h
    rcases hk with rfl | rfl <;> cases h
  | stopped | stopRefused | replied | finished | elapsed => cases he

theorem Transition.asking_cases (ht : Transition u s e s' effects)
    (after : s'.call? c = some .asking) :
    s.call? c = some .asking ∧ e.caller? ≠ some c ∨
      e = .looked c ∧ s.call? c = some .looking ∧ s.isIdle = true ∧ effects = [] := by
  rcases ht.entry after with before | entry
  · refine .inl ⟨before, fun own => ?_⟩
    obtain rfl := ht.asked_of_asking before own
    cases ht with
    | fetchBegins => cases (State.call?_changeCall_self ..).symm.trans after
  · cases entry with
    | asking idle =>
      cases ht with
      | idleSeen hc => exact .inr ⟨rfl, hc, idle, rfl⟩
      | fetchSkipped hc => exact .inr ⟨rfl, hc, idle, rfl⟩

/-- Histories in which every poll asks the store while the executor runs and has no task. -/
inductive Prompt (u : Setup) : List Occurrence → State → Prop where
  | initial : Prompt u [] .initial
  | step (before : Prompt u past s) (hs : s.step? u e = some (s', effects))
      (idle : ∀ c, .fetch c ∈ effects → s.lifecycle = .running ∧ s.current = none) :
      Prompt u (past ++ [⟨e, effects⟩]) s'

def Event.isQuestion : Event → Bool
  | .asked _ => true
  | _ => false

/-- A history, with some questions more, comes to be prompt by moving questions alone, and leads to
the same state but for the calls that put those more. -/
def Hastens (u : Setup) (past more : List Occurrence) (moved : Nat → Option Call) (s : State) :
    Prop :=
  ∃ past' t, Prompt u past' t ∧ past'.Perm (past ++ more) ∧
    past'.filter (!·.event.isQuestion) = past.filter (!·.event.isQuestion) ∧ s.Shifted moved t

variable {s s' : State} {past more : List Occurrence} {moved : Nat → Option Call}

theorem Hastens.step (h : Hastens u past more moved s) (ht : Transition u s e s' effects)
    (own : ∀ c, e.caller? = some c → moved c = none)
    (idle : ∀ c, .fetch c ∈ effects → s.lifecycle = .running ∧ s.current = none) :
    Hastens u (past ++ [⟨e, effects⟩]) more moved s' := by
  obtain ⟨past', t, prompt, perm, same, shifted⟩ := h
  obtain ⟨t', ht', shifted'⟩ := ht.shifted shifted own
  have idle' (c : Nat) (asked : .fetch c ∈ effects) :
      t.lifecycle = .running ∧ t.current = none := by
    rw [shifted.parts]
    exact idle c asked
  refine ⟨_, t', prompt.step ht'.step? idle', ?_, ?_, shifted'⟩
  · have last : ((past ++ more) ++ [(⟨e, effects⟩ : Occurrence)]).Perm
        ((past ++ [⟨e, effects⟩]) ++ more) := by
      rw [List.append_assoc, List.append_assoc]
      exact List.perm_append_comm.append_left past
    exact (perm.append_right _).trans last
  · rw [List.filter_append, List.filter_append, same]

theorem Hastens.ask (h : Hastens u past [] (fun _ => none) s) (hc : s.call? c = some .asking)
    (idle : s.lifecycle = .running ∧ s.current = none) :
    Hastens u past [⟨.asked c, [.fetch c]⟩] (fun d => if d = c then some .fetching else none)
      s := by
  obtain ⟨past', t, prompt, perm, same, shifted⟩ := h
  have asking : t.call? c = some .asking := (shifted.calls c).trans hc
  have idle' : t.lifecycle = .running ∧ t.current = none := by
    rw [shifted.parts]
    exact idle
  refine ⟨_, _, prompt.step (Transition.fetchBegins asking).step? fun _ _ => idle', ?_, ?_, ?_,
    fun d => ?_⟩
  · rw [List.append_nil] at perm
    exact perm.append_right _
  · rw [List.filter_append, same]
    exact List.append_nil _
  · have parts : t.changeCall c .fetching = { t with calls := (t.changeCall c .fetching).calls } :=
      rfl
    rw [parts, shifted.parts]
  · rw [State.call?_changeCall, shifted.calls]
    by_cases own : d = c <;> simp [own]

/-- A poll that is to ask the store may as well have asked it when it looked. -/
structure Hastened (u : Setup) (past : List Occurrence) (s : State) : Prop where
  settled : Hastens u past [] (fun _ => none) s
  pending : ∀ c, s.call? c = some .asking →
    Hastens u past [⟨.asked c, [.fetch c]⟩] (fun d => if d = c then some .fetching else none) s

theorem Hastened.asked (h : Hastened u past s) (gated : s.Gated)
    (hc : s.call? c = some .asking) :
    Hastened u (past ++ [⟨.asked c, [.fetch c]⟩]) (s.changeCall c .fetching) where
  settled := by
    obtain ⟨past', t, prompt, perm, same, shifted⟩ := h.pending c hc
    refine ⟨past', t, prompt, ?_, ?_, shifted.parts, fun d => ?_⟩
    · rwa [List.append_nil]
    · rw [same, List.filter_append]
      exact (List.append_nil _).symm
    · rw [shifted.calls, State.call?_changeCall]
      by_cases own : d = c <;> simp [own]
  pending d hd := by
    -- Only one poll holds the gate.
    exfalso
    rcases State.of_call?_changeCall hd with before | ⟨-, differs⟩
    · have gate := (gated d).1 (State.callIs_of_call? before)
      rw [(gated c).1 (State.callIs_of_call? hc), Option.some.injEq] at gate
      subst gate
      rw [State.call?_changeCall_self] at hd
      cases hd
    · cases differs

theorem Hastened.step (h : Hastened u past s) (gated : s.Gated)
    (ht : Transition u s e s' effects) : Hastened u (past ++ [⟨e, effects⟩]) s' := by
  by_cases asks : ∃ c, s.call? c = some .asking ∧ e = .asked c
  · obtain ⟨c, hc, rfl⟩ := asks
    cases ht with
    | fetchBegins => exact h.asked gated hc
  · have quiet (c : Nat) : .fetch c ∉ effects := by
      intro asked
      cases ht.cause asked with
      | fetches hc => exact asks ⟨c, hc, rfl⟩
    have idle (c : Nat) (asked : .fetch c ∈ effects) :
        s.lifecycle = .running ∧ s.current = none := (quiet c asked).elim
    have settled := h.settled.step ht (fun _ _ => rfl) idle
    refine ⟨settled, fun c hc => ?_⟩
    rcases ht.asking_cases hc with ⟨before, other⟩ | ⟨rfl, looking, seen, rfl⟩
    · refine (h.pending c before).step ht (fun d hd => if_neg ?_) idle
      rintro rfl
      exact other hd
    · -- The question is put right behind the look, where the executor is as the poll saw it.
      refine settled.ask hc ?_
      cases ht with
      | idleSeen => exact State.isIdle_iff.1 seen
      | fetchSkipped _ busy => cases seen.symm.trans busy

end Foreman.Executor

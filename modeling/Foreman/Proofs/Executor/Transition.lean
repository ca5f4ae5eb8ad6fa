import Foreman.Executor.Step

namespace Foreman.Executor

/-- One case for each way in which an event can come out. -/
inductive Transition (u : Setup) (s : State) : Event → State → List Effect → Prop where
  | startBegins (free : s.call? c = none) (hs : s.lifecycle = .stopped) :
      Transition u s (.start c) ({ s with lifecycle := .starting }.beginCall c .preparing)
        [.prepare c]
  | startRefused (free : s.call? c = none) (hs : s.lifecycle ≠ .stopped) :
      Transition u s (.start c) s [.returned c (.started (.error .alreadyRunning))]
  | prepareFails (hc : s.call? c = some .preparing) :
      Transition u s (.prepared c (.error f)) { s.endCall c with lifecycle := .stopped }
        [.returned c (.started (.error (.environment (u.policy.redactor.redact f.full))))]
  | requeueSkipped (hc : s.call? c = some .preparing) (busy : s.current.isSome) :
      Transition u s (.prepared c (.ok ())) (s.changeCall c .launching) []
  | requeueBegins (hc : s.call? c = some .preparing) (idle : s.current = none) :
      Transition u s (.prepared c (.ok ())) (s.changeCall c .requeueing) [.requeue c]
  | requeued (hc : s.call? c = some .requeueing) :
      Transition u s (.requeued c a) (s.launch u c).1 (s.launch u c).2
  | launched (hc : s.call? c = some .launching) :
      Transition u s (.launched c) (s.launch u c).1 (s.launch u c).2
  | stopped (hs : s.lifecycle = .running) :
      Transition u s .stop { s with lifecycle := .stopped, poller := none, notifier := none }
        ((s.poller.map .closePoller).toList ++ [.stopped (.ok (stoppedMessage s.current))])
  | stopRefused (hs : s.lifecycle ≠ .running) :
      Transition u s .stop s [.stopped (.error .notRunning)]
  | pollEnters (free : s.call? c = none) (hg : s.gate = none) :
      Transition u s (.poll c) ({ s with gate := some c }.beginCall c .looking) []
  | pollTurnsBack (free : s.call? c = none) (hg : s.gate ≠ none) :
      Transition u s (.poll c) s [.returned c .polled]
  | idleSeen (hc : s.call? c = some .looking) (idle : s.isIdle = true) :
      Transition u s (.looked c) (s.changeCall c .asking) []
  | fetchSkipped (hc : s.call? c = some .looking) (busy : s.isIdle = false) :
      Transition u s (.looked c) (s.changeCall c (.leaving false)) []
  | fetchBegins (hc : s.call? c = some .asking) :
      Transition u s (.asked c) (s.changeCall c .fetching) [.fetch c]
  | checkedOut (hc : s.call? c = some .fetching) (idle : s.isIdle = true)
      (hn : s.notifier = some session) :
      Transition u s (.fetched c (.ok (some t)))
        ((s.changeCall c (.leaving false)).checkOut t session).1 [.beginRun s.runCount]
  | nothingTaken (hc : s.call? c = some .fetching)
      (hp : panicked = match a with | .panicked _ => true | _ => false)
      (untaken : ∀ t session, a = .ok (some t) → s.notifier = some session → s.isIdle = false) :
      Transition u s (.fetched c a) (s.changeCall c (.leaving panicked)) []
  | pollLeaves (hc : s.call? c = some (.leaving panicked)) :
      Transition u s (.left c) { s.endCall c with gate := none }
        [.returned c (if panicked then .pollPanicked else .polled)]
  | waitEnds (free : s.call? c = none) (idle : s.current = none) :
      Transition u s (.wait c timeout) s [.returned c (.idle true)]
  | waitRegisters (free : s.call? c = none) (busy : s.current ≠ none) :
      Transition u s (.wait c timeout)
        ({ s with waiters := s.waiters.register.2 }.beginCall c
          (.waiting s.waiters.register.1 (s.now + timeout))) []
  | woken (hc : s.call? c = some (.waiting w deadline))
      (told : s.waiters.receiver w = .resolved) :
      Transition u s (.woken c) { s.endCall c with waiters := (s.waiters.look w).2 }
        [.returned c (.idle true)]
  | lapsed (hc : s.call? c = some (.waiting w deadline)) (late : deadline ≤ s.now)
      (untold : s.waiters.receiver w = .waiting) :
      Transition u s (.lapsed c)
        { s.changeCall c (.lapsed w) with waiters := s.waiters.drop w } []
  | expired (hc : s.call? c = some (.lapsed w)) :
      Transition u s (.expired c) { s.endCall c with waiters := (s.waiters.cancel w).2 }
        [.returned c (.idle s.current.isNone)]
  | startDropped (hc : s.call? c = some k) (hk : k = .preparing ∨ k = .requeueing) :
      Transition u s (.dropped c) { s.endCall c with lifecycle := .stopped } []
  | pollDropped (hc : s.call? c = some .fetching) :
      Transition u s (.dropped c) { s.endCall c with gate := none } []
  | waitDropped (hc : s.call? c = some (.waiting w deadline)) :
      Transition u s (.dropped c) { s.endCall c with waiters := s.waiters.drop w } []
  | replied (hr : s.run? n = some r) :
      Transition u s (.replied n reply)
        (s.setStage r.number (r.stage.next u.policy r.task reply).1)
        (if (r.stage.next u.policy r.task reply).2.isEmpty then []
          else [.queueNotices r.session (r.stage.next u.policy r.task reply).2])
  | finished (hr : s.run? n = some r) (ended : r.stage.isOver = true) :
      Transition u s (.finished n) (s.finish n).1 [.endRun n]
  | elapsed : Transition u s (.elapsed millis) { s with now := s.now + millis } []

theorem Transition.of_step? (h : s.step? u e = some (s', effects)) :
    Transition u s e s' effects := by
  cases e with
  | start c =>
    simp only [State.step?, State.start, Option.isNone_iff_eq_none] at h
    split at h
    case isFalse => cases h
    case isTrue free =>
      split at h <;> rename_i hs <;> cases h
      · exact .startBegins free hs
      · exact .startRefused free hs
  | prepared c a =>
    simp only [State.step?] at h
    split at h
    case isFalse => cases h
    case isTrue hc =>
      cases a with
      | error f =>
        cases h
        exact .prepareFails hc
      | ok x =>
        simp only [State.prepared] at h
        split at h <;> rename_i busy <;> cases h
        · exact .requeueSkipped hc busy
        · exact .requeueBegins hc (by simpa using busy)
  | requeued c a =>
    simp only [State.step?] at h
    split at h <;> cases h
    exact .requeued ‹_›
  | launched c =>
    simp only [State.step?] at h
    split at h <;> cases h
    exact .launched ‹_›
  | stop =>
    simp only [State.step?, State.stop] at h
    split at h <;> rename_i hs <;> cases h
    · exact .stopped hs
    · exact .stopRefused hs
  | poll c =>
    simp only [State.step?, State.poll, Option.isNone_iff_eq_none] at h
    split at h
    case isFalse => cases h
    case isTrue free =>
      split at h <;> rename_i hg <;> cases h
      · exact .pollEnters free hg
      · exact .pollTurnsBack free hg
  | looked c =>
    simp only [State.step?, State.looked] at h
    split at h
    case isFalse => cases h
    case isTrue hc =>
      cases idle : s.isIdle <;> rw [idle] at h <;> cases h
      · exact .fetchSkipped hc idle
      · exact .idleSeen hc idle
  | asked c =>
    simp only [State.step?] at h
    split at h <;> cases h
    exact .fetchBegins ‹_›
  | fetched c a =>
    simp only [State.step?] at h
    split at h
    case isFalse => cases h
    case isTrue hc =>
      cases a with
      | ok found =>
        cases found with
        | none =>
          cases h
          exact .nothingTaken hc rfl fun _ _ taken => by cases taken
        | some t =>
          simp only [State.fetched] at h
          split at h
          · cases h
            exact .checkedOut hc ‹_› ‹_›
          · rename_i untaken
            cases h
            refine .nothingTaken hc rfl ?_
            rintro t session ⟨⟩ hn
            exact Bool.eq_false_iff.2 (untaken session hn)
      | failed f =>
        cases h
        exact .nothingTaken hc rfl fun _ _ taken => by cases taken
      | panicked p =>
        cases h
        exact .nothingTaken hc rfl fun _ _ taken => by cases taken
  | left c =>
    simp only [State.step?] at h
    split at h <;> cases h
    exact .pollLeaves ‹_›
  | wait c timeout =>
    simp only [State.step?, State.wait, Option.isNone_iff_eq_none] at h
    split at h
    case isFalse => cases h
    case isTrue free =>
      split at h <;> rename_i hs <;> cases h
      · exact .waitEnds free hs
      · exact .waitRegisters free hs
  | woken c =>
    simp only [State.step?] at h
    split at h
    · split at h <;> cases h
      exact .woken ‹_› ‹_›
    · cases h
  | lapsed c =>
    simp only [State.step?] at h
    split at h
    · rename_i hc
      split at h <;> cases h
      rename_i hw
      exact .lapsed hc hw.1 hw.2
    · cases h
  | expired c =>
    simp only [State.step?] at h
    split at h <;> cases h
    exact .expired ‹_›
  | dropped c =>
    obtain ⟨k, hc, hk⟩ := Option.bind_eq_some_iff.1 h
    cases k with
    | preparing =>
      cases hk
      exact .startDropped hc (.inl rfl)
    | requeueing =>
      cases hk
      exact .startDropped hc (.inr rfl)
    | fetching =>
      cases hk
      exact .pollDropped hc
    | waiting w deadline =>
      cases hk
      exact .waitDropped hc
    | launching | looking | asking | leaving | lapsed => cases hk
  | replied n reply =>
    obtain ⟨r, hr, hs⟩ := Option.map_eq_some_iff.1 h
    cases hs
    exact .replied hr
  | finished n =>
    simp only [State.step?] at h
    split at h
    · rename_i hr
      split at h <;> cases h
      exact .finished hr ‹_›
    · cases h
  | elapsed millis =>
    cases h
    exact .elapsed

/-- Each of the cases is one that can happen. -/
theorem Transition.step? (ht : Transition u s e s' effects) :
    s.step? u e = some (s', effects) := by
  cases ht with
  | startBegins free hs | startRefused free hs => simp [State.step?, State.start, free, hs]
  | prepareFails hc => simp [State.step?, State.prepared, hc]
  | requeueSkipped hc busy => simp [State.step?, State.prepared, hc, busy]
  | requeueBegins hc idle => simp [State.step?, State.prepared, hc, idle]
  | requeued hc | launched hc => simp [State.step?, hc]
  | stopped hs | stopRefused hs => simp [State.step?, State.stop, hs]
  | pollEnters free hg | pollTurnsBack free hg => simp [State.step?, State.poll, free, hg]
  | idleSeen hc idle => simp [State.step?, State.looked, hc, idle]
  | fetchSkipped hc busy => simp [State.step?, State.looked, hc, busy]
  | fetchBegins hc => simp [State.step?, State.asked, hc]
  | checkedOut hc idle hn =>
    simp only [State.step?, State.fetched, hc, idle, hn, if_true]
    rfl
  | @nothingTaken c panicked a hc hp untaken =>
    subst hp
    simp only [State.step?, hc, if_true]
    rcases a with (_ | t) | f | p
    · rfl
    · simp only [State.fetched]
      split
      · rename_i hn idle
        rw [untaken t _ rfl hn] at idle
        cases idle
      · rfl
    · rfl
    · rfl
  | pollLeaves hc => simp [State.step?, State.left, hc]
  | waitEnds free idle => simp [State.step?, State.wait, free, idle]
  | waitRegisters free busy => simp [State.step?, State.wait, free, busy]
  | woken hc told => simp [State.step?, State.woken, hc, told]
  | lapsed hc late untold => simp [State.step?, State.lapsed, hc, late, untold]
  | expired hc => simp [State.step?, State.expired, hc]
  | startDropped hc hk => rcases hk with rfl | rfl <;> simp [State.step?, State.dropped?, hc]
  | pollDropped hc | waitDropped hc => simp [State.step?, State.dropped?, hc]
  | replied hr => simp [State.step?, State.replied, hr]
  | finished hr ended => simp [State.step?, State.finish, hr, ended]
  | elapsed => rfl

/-- What every step keeps, a whole history keeps. -/
theorem Leads.keeps {P : State → Prop}
    (keep : ∀ {s e s' effects}, P s → Transition u s e s' effects → P s')
    (h : Leads u s history s') (hs : P s) : P s' := by
  induction h with
  | refl => exact hs
  | head hstep _ ih => exact ih (keep hs (.of_step? hstep))

/-- The same of what is said about the past as well. -/
theorem Leads.keeps_past_from {P : List Occurrence → State → Prop}
    (keep : ∀ {past s e s' effects}, P past s → Transition u s e s' effects →
      P (past ++ [⟨e, effects⟩]) s')
    (h : Leads u s history s') (hs : P past s) : P (past ++ history) s' := by
  induction h generalizing past with
  | refl =>
    rw [List.append_nil]
    exact hs
  | head hstep _ ih =>
    have := ih (keep hs (.of_step? hstep))
    rwa [List.append_assoc] at this

theorem Leads.keeps_past {P : List Occurrence → State → Prop}
    (keep : ∀ {past s e s' effects}, P past s → Transition u s e s' effects →
      P (past ++ [⟨e, effects⟩]) s')
    (h : Leads u s history s') (hs : P [] s) : P history s' :=
  h.keeps_past_from keep hs

theorem Leads.trans (h : Leads u s first s') (h' : Leads u s' second s'') :
    Leads u s (first ++ second) s'' := by
  induction h with
  | refl => exact h'
  | head hstep _ ih => exact .head hstep (ih h')

theorem Leads.split (h : Leads u s (first ++ second) s'') :
    ∃ s', Leads u s first s' ∧ Leads u s' second s'' := by
  induction first generalizing s with
  | nil => exact ⟨s, .refl s, h⟩
  | cons o first ih =>
    cases h with
    | head hstep rest =>
      obtain ⟨s', h₁, h₂⟩ := ih rest
      exact ⟨s', .head hstep h₁, h₂⟩

/-- Before each step of a history the executor is where the steps before it lead. -/
theorem Leads.at_step (h : Leads u s (before ++ o :: rest) s'') :
    ∃ s₁ s₂, Leads u s before s₁ ∧ Transition u s₁ o.event s₂ o.effects ∧ Leads u s₂ rest s'' := by
  obtain ⟨s₁, hb, hr⟩ := h.split
  cases hr with
  | head hstep hr => exact ⟨s₁, _, hb, .of_step? hstep, hr⟩

theorem Leads.at_last (h : Leads u s (past ++ [o]) s'') :
    ∃ s', Leads u s past s' ∧ Transition u s' o.event s'' o.effects := by
  obtain ⟨s', _, before, ht, after⟩ := h.at_step
  cases after
  exact ⟨s', before, ht⟩

theorem Reachable.initial : Reachable u .initial := ⟨[], .refl _⟩

theorem Reachable.leads (h : Reachable u s) (h' : Leads u s history s') : Reachable u s' := by
  obtain ⟨before, hb⟩ := h
  exact ⟨before ++ history, hb.trans h'⟩

theorem Reachable.keeps {P : State → Prop}
    (keep : ∀ {s e s' effects}, P s → Transition u s e s' effects → P s')
    (h : Reachable u s) (hs : P .initial) : P s := by
  obtain ⟨history, hl⟩ := h
  exact hl.keeps keep hs

end Foreman.Executor

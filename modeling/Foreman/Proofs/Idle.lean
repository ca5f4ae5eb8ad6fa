import Foreman.Idle

namespace Foreman.IdleRegistry

/-- What can be done to a registry, or to a receiver that it has handed out. -/
inductive Action where
  | register
  | cancel (id : Nat)
  | resolveAll
  | drop (id : Nat)
deriving DecidableEq, Repr

def act (r : IdleRegistry) : Action → IdleRegistry
  | .register => r.register.2
  | .cancel id => (r.cancel id).2
  | .resolveAll => r.resolveAll.2
  | .drop id => r.drop id

/-- The registry after a history, the first action first. -/
def after (history : List Action) : IdleRegistry := history.foldl act empty

/-- How many waiters have been registered. -/
def registered (history : List Action) : Nat := history.count .register

/-- What has been done since a waiter was registered, if it was; waiters are counted from zero. -/
def since? : List Action → Nat → Option (List Action)
  | [], _ => none
  | .register :: rest, 0 => some rest
  | .register :: rest, id + 1 => since? rest id
  | _ :: rest, id => since? rest id

/-- Whether a waiter was registered, and since then neither cancelled nor told. -/
def outstanding (history : List Action) (id : Nat) : Bool :=
  (since? history id).any fun since => .cancel id ∉ since ∧ .resolveAll ∉ since

/-- Whether a waiter is outstanding and its receiver still there. -/
def listening (history : List Action) (id : Nat) : Bool :=
  outstanding history id && (since? history id).all (.drop id ∉ ·)

variable {history since : List Action} {a : Action} {r : IdleRegistry} {id : Nat}

theorem registered_cons_of_ne (ha : a ≠ .register) (history : List Action) :
    registered (a :: history) = registered history :=
  List.count_cons_of_ne ha

theorem since?_cons_of_ne (ha : a ≠ .register) (history : List Action) (id : Nat) :
    since? (a :: history) id = since? history id := by
  cases a with
  | register => exact absurd rfl ha
  | cancel | resolveAll | drop => rfl

theorem since?_append_register (earlier since : List Action) :
    since? (earlier ++ .register :: since) (registered earlier) = some since := by
  induction earlier with
  | nil => rfl
  | cons a earlier ih =>
    by_cases ha : a = .register
    · subst ha
      simpa [since?, registered] using ih
    · rw [List.cons_append, since?_cons_of_ne ha, registered_cons_of_ne ha, ih]

theorem exists_of_since? (h : since? history id = some since) :
    ∃ earlier, history = earlier ++ .register :: since ∧ registered earlier = id := by
  induction history generalizing id with
  | nil => cases h
  | cons a rest ih =>
    by_cases ha : a = .register
    · subst ha
      cases id with
      | zero =>
        cases h
        exact ⟨[], rfl, rfl⟩
      | succ id =>
        obtain ⟨earlier, rfl, rfl⟩ := ih h
        exact ⟨.register :: earlier, rfl, List.count_cons_self⟩
    · rw [since?_cons_of_ne ha] at h
      obtain ⟨earlier, rfl, rfl⟩ := ih h
      exact ⟨a :: earlier, rfl, registered_cons_of_ne ha earlier⟩

theorem since?_lt (h : since? history id = some since) : id < registered history := by
  obtain ⟨earlier, rfl, rfl⟩ := exists_of_since? h
  simp [registered]

theorem since?_concat (h : since? history id = some since) (a : Action) :
    since? (history ++ [a]) id = some (since ++ [a]) := by
  obtain ⟨earlier, rfl, rfl⟩ := exists_of_since? h
  rw [List.append_assoc, List.cons_append, since?_append_register]

theorem since?_register (history : List Action) :
    since? (history ++ [.register]) (registered history) = some [] :=
  since?_append_register history []

theorem since?_concat_cases (h : since? (history ++ [a]) id = some since) :
    (∃ before, since? history id = some before ∧ since = before ++ [a]) ∨
      a = .register ∧ id = registered history ∧ since = [] := by
  obtain ⟨earlier, split, rfl⟩ := exists_of_since? h
  rcases List.eq_nil_or_concat since with rfl | ⟨before, b, rfl⟩
  · obtain ⟨rfl, same⟩ := List.append_inj' split rfl
    cases same
    exact .inr ⟨rfl, rfl, rfl⟩
  · rw [List.concat_eq_append, ← List.cons_append, ← List.append_assoc] at split
    obtain ⟨rfl, same⟩ := List.append_inj' split rfl
    cases same
    exact .inl ⟨before, since?_append_register earlier before, List.concat_eq_append⟩

theorem outstanding_iff : outstanding history id = true ↔
    ∃ since, since? history id = some since ∧ .cancel id ∉ since ∧ .resolveAll ∉ since := by
  unfold outstanding
  cases since? history id <;> simp

theorem outstanding_lt (h : outstanding history id = true) : id < registered history := by
  obtain ⟨since, hs, -⟩ := outstanding_iff.1 h
  exact since?_lt hs

theorem outstanding_concat : outstanding (history ++ [a]) id = true ↔
    a = .register ∧ id = registered history ∨
      outstanding history id = true ∧ a ≠ .cancel id ∧ a ≠ .resolveAll := by
  simp only [outstanding_iff]
  constructor
  · rintro ⟨since, hs, kept, untold⟩
    rcases since?_concat_cases hs with ⟨before, hb, rfl⟩ | ⟨new, now, -⟩
    · simp only [List.mem_append, List.mem_singleton, not_or] at kept untold
      exact .inr ⟨⟨before, hb, kept.1, untold.1⟩, Ne.symm kept.2, Ne.symm untold.2⟩
    · exact .inl ⟨new, now⟩
  · rintro (⟨rfl, rfl⟩ | ⟨⟨before, hb, kept, untold⟩, hc, hr⟩)
    · exact ⟨[], since?_register history, List.not_mem_nil, List.not_mem_nil⟩
    · refine ⟨_, since?_concat hb a, ?_, ?_⟩
      · simp [kept, Ne.symm hc]
      · simp [untold, Ne.symm hr]

/-- A receiver after an action. -/
def hear (id : Nat) (x : Receiver) : Action → Receiver
  | .register => x
  | .cancel other => if other = id then closeReceiver x else x
  | .resolveAll => resolveReceiver x
  | .drop other => if other = id then .dropped else x

/-- A receiver after what has been done since it was handed out. -/
def fate (id : Nat) (since : List Action) : Receiver := since.foldl (hear id) .waiting

theorem fate_append_cons (id : Nat) (before : List Action) (a : Action) (more : List Action) :
    fate id (before ++ a :: more) = more.foldl (hear id) (hear id (fate id before) a) :=
  List.foldl_append ..

theorem fate_concat (id : Nat) (since : List Action) (a : Action) :
    fate id (since ++ [a]) = hear id (fate id since) a :=
  fate_append_cons id since a []

theorem closeReceiver_of_ne (hx : x ≠ .waiting) : closeReceiver x = x := by
  cases x <;> first | rfl | exact absurd rfl hx

theorem resolveReceiver_of_ne (hx : x ≠ .waiting) : resolveReceiver x = x := by
  cases x <;> first | rfl | exact absurd rfl hx

/-- What ends the waiting of a receiver. -/
def Ends (id : Nat) (a : Action) : Prop := a = .cancel id ∨ a = .resolveAll ∨ a = .drop id

theorem hear_of_not_ends (h : ¬ Ends id a) (x : Receiver) : hear id x a = x := by
  simp only [Ends, not_or] at h
  cases a <;> simp_all [hear]

theorem hear_ne_waiting (h : Ends id a) (x : Receiver) : hear id x a ≠ .waiting := by
  rcases h with rfl | rfl | rfl
  · cases x <;> simp [hear, closeReceiver]
  · cases x <;> simp [hear, resolveReceiver]
  · simp [hear]

/-- A receiver that does not wait any more stays as it is until it is dropped. -/
theorem hear_of_ne_waiting (hx : x ≠ .waiting) (a : Action) :
    hear id x a = if a = .drop id then .dropped else x := by
  cases a <;> simp [hear, closeReceiver_of_ne hx, resolveReceiver_of_ne hx]

theorem foldl_hear (hx : x ≠ .waiting) (more : List Action) :
    more.foldl (hear id) x = if .drop id ∈ more then .dropped else x := by
  induction more generalizing x with
  | nil => rfl
  | cons a more ih =>
    rw [List.foldl_cons, hear_of_ne_waiting hx]
    by_cases ha : a = .drop id
    · have gone := ih (x := .dropped) nofun
      simp [ha, gone]
    · simp [ha, Ne.symm ha, ih hx]

/-- A receiver waits as long as it is neither dropped nor cancelled nor told. -/
theorem fate_eq_waiting : fate id since = .waiting ↔ ∀ a ∈ since, ¬ Ends id a := by
  constructor
  · intro waits a ha ends
    obtain ⟨before, more, rfl⟩ := List.append_of_mem ha
    have ended := hear_ne_waiting ends (fate id before)
    rw [fate_append_cons, foldl_hear ended] at waits
    split at waits
    · cases waits
    · exact ended waits
  · intro h
    induction since with
    | nil => rfl
    | cons a since ih =>
      obtain ⟨first, rest⟩ := List.forall_mem_cons.1 h
      rw [fate, List.foldl_cons, hear_of_not_ends first]
      exact ih rest

theorem fate_eq_waiting_iff : fate id since = .waiting ↔
    .cancel id ∉ since ∧ .resolveAll ∉ since ∧ .drop id ∉ since := by
  rw [fate_eq_waiting]
  constructor
  · intro h
    exact ⟨fun hc => h _ hc (.inl rfl), fun hr => h _ hr (.inr (.inl rfl)),
      fun hd => h _ hd (.inr (.inr rfl))⟩
  · rintro ⟨kept, untold, held⟩ a ha (rfl | rfl | rfl)
    · exact kept ha
    · exact untold ha
    · exact held ha

theorem fate_of_dropped (h : .drop id ∈ since) : fate id since = .dropped := by
  obtain ⟨before, more, rfl⟩ := List.append_of_mem h
  have gone : hear id (fate id before) (.drop id) = .dropped := if_pos rfl
  rw [fate_append_cons, gone, foldl_hear (x := .dropped) nofun]
  split <;> rfl

/-- A waiter that is cancelled is not told any more. -/
theorem fate_of_cancelled (kept : .cancel id ∉ before) (untold : .resolveAll ∉ before)
    (more : List Action) : fate id (before ++ .cancel id :: more) =
      if .drop id ∈ before ++ .cancel id :: more then .dropped else .closed := by
  split
  · rename_i gone
    exact fate_of_dropped gone
  · rename_i held
    simp only [List.mem_append, List.mem_cons, not_or] at held
    have waits : fate id before = .waiting := fate_eq_waiting_iff.2 ⟨kept, untold, held.1⟩
    have closed : hear id .waiting (.cancel id) = .closed := if_pos rfl
    rw [fate_append_cons, waits, closed, foldl_hear (x := .closed) nofun, if_neg held.2.2]

/-- A waiter that is neither cancelled nor dropped is told by the first resolution. -/
theorem fate_eq_resolved : fate id since = .resolved ↔ .drop id ∉ since ∧
    ∃ before more, since = before ++ .resolveAll :: more ∧
      .cancel id ∉ before ∧ .resolveAll ∉ before := by
  constructor
  · intro told
    have held : .drop id ∉ since := fun gone => by
      rw [fate_of_dropped gone] at told
      cases told
    -- Had it been cancelled before anyone was told, it would be closed.
    have kept {before more : List Action} (split : since = before ++ more)
        (untold : .resolveAll ∉ before) : .cancel id ∉ before := by
      intro cancelled
      obtain ⟨front, back, rfl, first⟩ := List.eq_append_cons_of_mem cancelled
      rw [split, List.append_assoc, List.cons_append,
        fate_of_cancelled first fun h => untold (List.mem_append_left _ h)] at told
      split at told <;> cases told
    by_cases resolved : .resolveAll ∈ since
    · obtain ⟨before, more, rfl, untold⟩ := List.eq_append_cons_of_mem resolved
      exact ⟨held, before, more, rfl, kept rfl untold, untold⟩
    · have cancelled := kept (List.append_nil since).symm resolved
      rw [fate_eq_waiting_iff.2 ⟨cancelled, resolved, held⟩] at told
      cases told
  · rintro ⟨held, before, more, rfl, kept, untold⟩
    simp only [List.mem_append, List.mem_cons, not_or] at held
    have waits : fate id before = .waiting := fate_eq_waiting_iff.2 ⟨kept, untold, held.1⟩
    have now : hear id .waiting .resolveAll = .resolved := rfl
    rw [fate_append_cons, waits, now, foldl_hear (x := .resolved) nofun, if_neg held.2.2]

/-- A registry is what its history says. -/
structure Agrees (history : List Action) (r : IdleRegistry) : Prop where
  handed : r.receivers.length = registered history
  pending : r.pending = (List.range (registered history)).filter (outstanding history)
  receiver : ∀ {id since}, since? history id = some since → r.receiver id = fate id since

theorem Agrees.nodup_pending (h : Agrees history r) : r.pending.Nodup := by
  rw [h.pending]
  exact List.nodup_range.filter _

theorem Agrees.mem_pending (h : Agrees history r) :
    id ∈ r.pending ↔ outstanding history id = true := by
  rw [h.pending, List.mem_filter, List.mem_range]
  exact ⟨And.right, fun hi => ⟨outstanding_lt hi, hi⟩⟩

theorem Agrees.waiting_mem_pending (h : Agrees history r) (hs : since? history id = some since)
    (waits : r.receiver id = .waiting) : id ∈ r.pending := by
  rw [h.receiver hs, fate_eq_waiting_iff] at waits
  exact h.mem_pending.2 (outstanding_iff.2 ⟨since, hs, waits.1, waits.2.1⟩)

theorem length_receivers_act (r : IdleRegistry) (a : Action) :
    (r.act a).receivers.length = r.receivers.length + if a = .register then 1 else 0 := by
  cases a with
  | register => simp [act, IdleRegistry.register]
  | cancel id =>
    simp only [act, IdleRegistry.cancel]
    split <;> simp
  | resolveAll => simp [act, IdleRegistry.resolveAll]
  | drop id => simp [act, IdleRegistry.drop]

/-- Everyone who still waits is pending, so that an action is heard by all it is meant for. -/
theorem Agrees.receiver_act (h : Agrees history r) (hs : since? history id = some since)
    (a : Action) : (r.act a).receiver id = hear id (r.receiver id) a := by
  have waits := h.waiting_mem_pending hs
  cases a with
  | register =>
    have old : id ≠ r.receivers.length := by
      rw [h.handed]
      exact Nat.ne_of_lt (since?_lt hs)
    exact (receiver_register r id).trans (if_neg old)
  | cancel other =>
    simp only [act, hear, receiver_cancel]
    by_cases same : id = other
    · subst same
      by_cases hp : id ∈ r.pending
      · simp [hp]
      · simp [hp, closeReceiver_of_ne (mt waits hp)]
    · simp [same, Ne.symm same]
  | resolveAll =>
    simp only [act, hear, receiver_resolveAll]
    split
    · rfl
    · rename_i hp
      exact (resolveReceiver_of_ne (mt waits hp)).symm
  | drop other =>
    simp only [act, hear, receiver_drop, eq_comm]

theorem Agrees.pending_act (h : Agrees history r) (a : Action) :
    (r.act a).pending =
      (List.range (registered (history ++ [a]))).filter (outstanding (history ++ [a])) := by
  by_cases ha : a = .register
  · subst ha
    have count : registered (history ++ [.register]) = registered history + 1 := by
      simp [registered]
    have newest : outstanding (history ++ [.register]) (registered history) = true :=
      outstanding_concat.2 (.inl ⟨rfl, rfl⟩)
    have old : ∀ id ∈ List.range (registered history),
        outstanding (history ++ [.register]) id = outstanding history id := by
      intro id hid
      rw [Bool.eq_iff_iff, outstanding_concat]
      simp [Nat.ne_of_lt (List.mem_range.1 hid)]
    rw [count, List.range_succ, List.filter_append, List.filter_congr old, ← h.pending]
    simp [newest, IdleRegistry.act, IdleRegistry.register, h.handed]
  · have count : registered (history ++ [a]) = registered history := by
      simp [registered, ha]
    have kept : ∀ id, outstanding (history ++ [a]) id =
        (decide (a ≠ .cancel id ∧ a ≠ .resolveAll) && outstanding history id) := by
      intro id
      rw [Bool.eq_iff_iff, outstanding_concat]
      simp [ha, and_comm]
    rw [count, List.filter_congr fun id _ => kept id, ← List.filter_filter, ← h.pending]
    cases a with
    | register => exact absurd rfl ha
    | cancel other =>
      rw [IdleRegistry.act, pending_cancel, h.nodup_pending.erase_eq_filter]
      refine List.filter_congr fun id _ => ?_
      rw [Bool.eq_iff_iff, bne_iff_ne, decide_eq_true_iff]
      simp [ne_comm]
    | resolveAll => simp [IdleRegistry.act]
    | drop other =>
      rw [IdleRegistry.act, pending_drop]
      exact (List.filter_eq_self.2 fun id _ => by simp).symm

theorem Agrees.act (h : Agrees history r) (a : Action) : Agrees (history ++ [a]) (r.act a) where
  handed := by
    rw [length_receivers_act, h.handed]
    simp [registered, List.count_append, List.count_singleton]
  pending := h.pending_act a
  receiver {id since} hs := by
    rcases since?_concat_cases hs with ⟨before, hb, rfl⟩ | ⟨rfl, rfl, rfl⟩
    · rw [h.receiver_act hb, h.receiver hb, fate_concat]
    · exact (receiver_register r _).trans (if_pos h.handed.symm)

theorem Agrees.foldl (h : Agrees history r) (more : List Action) :
    Agrees (history ++ more) (more.foldl IdleRegistry.act r) := by
  induction more generalizing history r with
  | nil => rwa [List.append_nil]
  | cons a more ih =>
    have := ih (h.act a)
    rwa [List.append_assoc] at this

theorem agrees_after (history : List Action) : Agrees history (after history) :=
  have unused : Agrees [] empty := ⟨rfl, rfl, nofun⟩
  unused.foldl history

/-- What a registry answers after a history is what the history says. -/
structure TrueTo (history : List Action) : Prop where
  /-- The next id is none that was given before. -/
  fresh : ∀ earlier since, history = earlier ++ .register :: since →
    (after earlier).register.1 < (after history).register.1
  /-- In fewer than 2^64 actions an id does not outgrow 64 bits. -/
  bounded : (after history).register.1 ≤ history.length
  since_iff : ∀ id since, since? history id = some since ↔
    ∃ earlier, history = earlier ++ .register :: since ∧ (after earlier).register.1 = id
  /-- A waiter that is neither cancelled nor dropped before is told by the first resolution. -/
  resolved_iff : ∀ id since, since? history id = some since →
    ((after history).receiver id = .resolved ↔ .drop id ∉ since ∧
      ∃ before more, since = before ++ .resolveAll :: more ∧
        .cancel id ∉ before ∧ .resolveAll ∉ before)
  /-- And it is told only then, so that it is told once. -/
  told_iff : ∀ id since a, since? history id = some since →
    ((after history).receiver id ≠ .resolved ∧ (after (history ++ [a])).receiver id = .resolved ↔
      a = .resolveAll ∧ .resolveAll ∉ since ∧ .cancel id ∉ since ∧ .drop id ∉ since)
  /-- A waiter that is cancelled in time is never told. -/
  closed : ∀ id before more, since? history id = some (before ++ .cancel id :: more) →
    .cancel id ∉ before → .resolveAll ∉ before →
      (after history).receiver id =
        if .drop id ∈ before ++ .cancel id :: more then .dropped else .closed
  cancel_iff : ∀ id, ((after history).cancel id).1 = true ↔
    ∃ since, since? history id = some since ∧ .cancel id ∉ since ∧ .resolveAll ∉ since
  resolveAll_eq : (after history).resolveAll.1 =
    (List.range (registered history)).countP (listening history)
  emptied : (after history).resolveAll.2.size = 0
  size_eq : (after history).size = (List.range (registered history)).countP (outstanding history)

theorem registered_eq (history : List Action) :
    (after history).register.1 = registered history :=
  (agrees_after history).handed

theorem after_concat (history : List Action) (a : Action) :
    after (history ++ [a]) = (after history).act a :=
  List.foldl_append ..

theorem listening_iff : listening history id = true ↔
    ∃ since, since? history id = some since ∧ fate id since = .waiting := by
  unfold listening outstanding
  cases since? history id <;> simp [fate_eq_waiting_iff, and_assoc]

theorem Agrees.listening (h : Agrees history r) (hp : id ∈ r.pending) :
    r.receiver id = .waiting ↔ IdleRegistry.listening history id = true := by
  obtain ⟨since, hs, -⟩ := outstanding_iff.1 (h.mem_pending.1 hp)
  rw [listening_iff, h.receiver hs]
  simp [hs]

theorem Agrees.resolveAll_eq (h : Agrees history r) : r.resolveAll.1 =
    (List.range (registered history)).countP (IdleRegistry.listening history) := by
  have same : r.pending.countP (r.receiver · = .waiting) =
      r.pending.countP (IdleRegistry.listening history) :=
    List.countP_congr fun id hp => by simpa using h.listening hp
  rw [IdleRegistry.resolveAll, same, h.pending, List.countP_filter]
  refine List.countP_congr fun id _ => ?_
  simp +contextual [IdleRegistry.listening]

theorem hear_eq_resolved (x : Receiver) (a : Action) :
    x ≠ .resolved ∧ hear id x a = .resolved ↔ a = .resolveAll ∧ x = .waiting := by
  cases a with
  | register => simp [hear]
  | cancel other => by_cases other = id <;> cases x <;> simp [hear, closeReceiver, *]
  | resolveAll => cases x <;> simp [hear, resolveReceiver]
  | drop other => by_cases other = id <;> simp [hear, *]

theorem cancel_eq_true : (r.cancel id).1 = true ↔ id ∈ r.pending := by
  simp only [cancel, List.contains_iff_mem]
  split <;> simp [*]

/-- After every history the registry is true to it. -/
theorem true_to_history (history : List Action) : TrueTo history where
  fresh := by
    rintro earlier since rfl
    simp [registered_eq, registered]
  bounded := by
    rw [registered_eq]
    exact List.count_le_length
  since_iff id since := by
    simp only [registered_eq]
    constructor
    · exact exists_of_since?
    · rintro ⟨earlier, rfl, rfl⟩
      exact since?_append_register earlier since
  resolved_iff id since hs := by
    rw [(agrees_after history).receiver hs, fate_eq_resolved]
  told_iff id since a hs := by
    have agrees := agrees_after history
    rw [after_concat, agrees.receiver_act hs, hear_eq_resolved, agrees.receiver hs,
      fate_eq_waiting_iff]
    simp only [and_left_comm]
  closed id before more hs kept untold := by
    rw [(agrees_after history).receiver hs, fate_of_cancelled kept untold]
  cancel_iff id := by
    rw [← outstanding_iff, ← (agrees_after history).mem_pending, cancel_eq_true]
  resolveAll_eq := (agrees_after history).resolveAll_eq
  emptied := rfl
  size_eq := by
    rw [size, (agrees_after history).pending, List.countP_eq_length_filter]

/-- Of three waiters one was cancelled and one does not listen any more. -/
example : (after [.register, .register, .drop 0, .register, .cancel 1]).resolveAll.1 = 1 := by
  decide

end Foreman.IdleRegistry

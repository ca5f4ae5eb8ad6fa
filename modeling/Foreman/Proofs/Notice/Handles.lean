import Foreman.Proofs.Notice.Delivery

namespace Foreman

/-- A queue of notices, the handles on it, and the sink that its background task delivers to. -/
structure Outlet where
  queue : NoticeQueue
  sink : Sink
  handles : Nat
deriving DecidableEq

namespace Outlet

inductive Event where
  | notify (text : String)
  | clone
  | drop
  /-- A step of the background task. -/
  | turn
  /-- The sink begins or ceases to block, and will fail so many times. -/
  | shift (blocked : Bool) (failures : Nat)
deriving DecidableEq

/-- An outlet with one handle. -/
def opened (capacity : Nat) (blocked : Bool) (failures : Nat) : Outlet :=
  ⟨.ofCapacity capacity, ⟨blocked, failures, []⟩, 1⟩

def step? (r : Redactor) (x : Outlet) : Event → Option Outlet
  | .notify text =>
    if x.handles = 0 then none else some { x with queue := x.queue.notify r text }
  | .clone => if x.handles = 0 then none else some { x with handles := x.handles + 1 }
  | .drop => if x.handles = 0 then none else some { x with handles := x.handles - 1 }
  | .turn =>
    (x.queue.step? x.sink).map fun (queue, sink) => { x with queue, sink }
  | .shift blocked failures => some { x with sink := { x.sink with blocked, failures } }

/-- What has become of the notices so far. -/
structure Ledger where
  /-- The texts that the queue took. -/
  accepted : List String
  /-- The notices whose delivery was begun. -/
  handed : List String
  /-- The notices whose delivery has ended, each with whether it succeeded. -/
  settled : List (String × Bool)
deriving DecidableEq

def Ledger.empty : Ledger := ⟨[], [], []⟩

def Event.accepted (e : Event) (x x' : Outlet) : List String :=
  match e with
  | .notify text => if x'.queue = x.queue then [] else [text]
  | _ => []

def Ledger.enter (l : Ledger) (e : Event) (x x' : Outlet) : Ledger where
  accepted := l.accepted ++ e.accepted x x'
  handed := l.handed ++ NoticeQueue.taken x.queue x'.queue
  settled := l.settled ++
    if x'.queue.delivering.isNone then
      x.queue.delivering.toList.map fun text => (text, x.sink.failures == 0)
    else []

/-- Lets events happen, if each can, and keeps the ledger. -/
def run? (r : Redactor) : List Event → Outlet → Ledger → Option (Outlet × Ledger)
  | [], x, l => some (x, l)
  | e :: es, x, l => (x.step? r e).bind fun x' => run? r es x' (l.enter e x x')

/-- The turns that the background task needs for what was accepted. -/
def left (x : Outlet) : Nat := 2 * x.queue.queued.length + x.queue.delivering.toList.length

variable {r : Redactor} {x x' : Outlet} {l l' : Ledger} {e : Event} {es : List Event}

/-- The ledger agrees with the outlet. -/
structure Balanced (r : Redactor) (n : Nat) (x : Outlet) (l : Ledger) : Prop where
  capacity : x.queue.capacity = max 1 n
  accepted : l.handed ++ x.queue.queued = l.accepted.map r.redact
  handed : l.settled.map Prod.fst ++ x.queue.delivering.toList = l.handed
  delivered : x.sink.delivered = (l.settled.filter Prod.snd).map Prod.fst
  room : x.queue.queued.length ≤ max 1 n

theorem Balanced.opened : Balanced r n (opened n blocked failures) .empty where
  capacity := rfl
  accepted := rfl
  handed := rfl
  delivered := rfl
  room := Nat.zero_le _

theorem notify_delivering (q : NoticeQueue) (text : String) :
    (q.notify r text).delivering = q.delivering := by
  unfold NoticeQueue.notify
  split <;> rfl

theorem notify_eq_self_iff {q : NoticeQueue} : q.notify r text = q ↔ q.isFull = true := by
  unfold NoticeQueue.notify
  split
  · simp [*]
  · rename_i room
    refine iff_of_false ?_ room
    intro same
    have longer := congrArg (fun q : NoticeQueue => q.queued.length) same
    simp at longer

/-- An event at which no delivery begins or ends. -/
theorem Balanced.still (h : Balanced r n x l) (hc : x'.queue.capacity = x.queue.capacity)
    (hd : x'.queue.delivering = x.queue.delivering)
    (hs : x'.sink.delivered = x.sink.delivered)
    (hq : x'.queue.queued = x.queue.queued ++ (e.accepted x x').map r.redact)
    (room : x'.queue.queued.length ≤ max 1 n) : Balanced r n x' (l.enter e x x') := by
  have handed : (l.enter e x x').handed = l.handed := by
    simp only [Ledger.enter, NoticeQueue.taken, hd]
    cases x.queue.delivering <;> simp
  have settled : (l.enter e x x').settled = l.settled := by
    simp only [Ledger.enter, hd]
    cases x.queue.delivering <;> simp
  constructor
  · rw [hc, h.capacity]
  · rw [handed, hq, ← List.append_assoc, h.accepted, Ledger.enter, List.map_append]
  · rw [settled, hd, handed, h.handed]
  · rw [settled, hs, h.delivered]
  · exact room

theorem Balanced.notify (h : Balanced r n x l) (hs : x.step? r (.notify text) = some x') :
    Balanced r n x' (l.enter (.notify text) x x') := by
  simp only [step?, Option.ite_none_left_eq_some, Option.some.injEq] at hs
  obtain ⟨-, rfl⟩ := hs
  by_cases full : x.queue.isFull = true
  · have same : x.queue.notify r text = x.queue := notify_eq_self_iff.2 full
    refine h.still ?_ ?_ rfl ?_ ?_ <;> simp [same, Event.accepted, h.room]
  · have grown : x.queue.notify r text
        = ⟨x.queue.capacity, x.queue.delivering, x.queue.queued ++ [r.redact text]⟩ := by
      rw [NoticeQueue.notify, if_neg full]
    have changed : x.queue.notify r text ≠ x.queue := mt notify_eq_self_iff.1 full
    have below : x.queue.queued.length < max 1 n := by
      rw [← h.capacity]
      simpa [NoticeQueue.isFull] using full
    refine h.still ?_ ?_ rfl ?_ ?_
    · rw [grown]
    · rw [grown]
    · rw [Event.accepted, if_neg changed, grown, List.map_singleton]
    · rw [grown, List.length_append, List.length_singleton]
      exact below

/-- The background task begins the next delivery, or ends the one it has begun. -/
theorem turn_cases (hs : x.step? r .turn = some x') :
    (∃ text rest, x.queue.delivering = none ∧ x.queue.queued = text :: rest ∧
      x' = { x with queue := { x.queue with delivering := some text, queued := rest } }) ∨
    ∃ text, x.queue.delivering = some text ∧ x.sink.blocked = false ∧
      x' = { x with
        queue := { x.queue with delivering := none }
        sink := x.sink.attempt text } := by
  obtain ⟨⟨capacity, delivering, queued⟩, sink, handles⟩ := x
  cases delivering with
  | some text =>
    cases hb : sink.blocked with
    | true => simp [step?, NoticeQueue.step?, hb] at hs
    | false =>
      simp only [step?, NoticeQueue.step?, hb] at hs
      cases hs
      exact .inr ⟨text, rfl, rfl, rfl⟩
  | none =>
    cases queued with
    | nil => cases hs
    | cons text rest =>
      cases hs
      exact .inl ⟨text, rest, rfl, rfl, rfl⟩

theorem Balanced.turn (h : Balanced r n x l) (hs : x.step? r .turn = some x') :
    Balanced r n x' (l.enter .turn x x') := by
  obtain ⟨capacity, accepted, handed, delivered, room⟩ := h
  obtain ⟨text, rest, idle, queued, rfl⟩ | ⟨text, busy, -, rfl⟩ := turn_cases hs
  · rw [queued] at accepted room
    rw [idle, Option.toList_none, List.append_nil] at handed
    constructor
    · exact capacity
    · simpa [Ledger.enter, Event.accepted, NoticeQueue.taken, idle] using accepted
    · simp [Ledger.enter, NoticeQueue.taken, idle, handed]
    · simpa [Ledger.enter] using delivered
    · exact Nat.le_of_succ_le room
  · rw [busy] at handed
    constructor
    · exact capacity
    · simpa [Ledger.enter, Event.accepted, NoticeQueue.taken, busy] using accepted
    · simpa [Ledger.enter, NoticeQueue.taken, busy] using handed
    · -- The sink has the notice only if it had no failure left.
      cases hf : x.sink.failures <;>
        simp [Ledger.enter, busy, Sink.attempt, hf, delivered]
    · exact room

theorem Balanced.step (h : Balanced r n x l) (hs : x.step? r e = some x') :
    Balanced r n x' (l.enter e x x') := by
  cases e with
  | notify text => exact h.notify hs
  | clone | drop =>
    simp only [step?, Option.ite_none_left_eq_some, Option.some.injEq] at hs
    obtain ⟨-, rfl⟩ := hs
    exact h.still rfl rfl rfl (List.append_nil _).symm h.room
  | turn => exact h.turn hs
  | shift blocked failures =>
    cases hs
    exact h.still rfl rfl rfl (List.append_nil _).symm h.room

theorem Balanced.run (h : Balanced r n x l) (hr : run? r es x l = some (x', l')) :
    Balanced r n x' l' := by
  induction es generalizing x l with
  | nil =>
    cases hr
    exact h
  | cons e es ih =>
    obtain ⟨y, hs, hr⟩ := Option.bind_eq_some_iff.1 hr
    exact ih (h.step hs) hr

theorem turn_left (hs : x.step? r .turn = some x') : x'.left + 1 = x.left := by
  obtain ⟨text, rest, idle, queued, rfl⟩ | ⟨text, busy, -, rfl⟩ := turn_cases hs
  · simp only [left, idle, queued, Option.toList_some, Option.toList_none, List.length_cons,
      List.length_nil]
    omega
  · simp only [left, busy, Option.toList_some, Option.toList_none, List.length_cons,
      List.length_nil]

/-- The background task waits only for an accepted notice, or for a sink that holds it back. -/
theorem turn_isSome_iff : (x.step? r .turn).isSome ↔
    x.left ≠ 0 ∧ (x.queue.delivering.isSome → x.sink.blocked = false) := by
  obtain ⟨⟨capacity, delivering, queued⟩, sink, handles⟩ := x
  cases delivering with
  | some text => cases hb : sink.blocked <;> simp [step?, NoticeQueue.step?, left, hb]
  | none => cases queued <;> simp [step?, NoticeQueue.step?, left]

/-- Nothing is told any more, and only what was accepted is left to do. -/
theorem abandoned_step (hh : x.handles = 0) (hs : x.step? r e = some x') :
    x'.handles = 0 ∧ (l.enter e x x').accepted = l.accepted ∧
      x'.left + (if e == .turn then 1 else 0) = x.left := by
  cases e with
  | notify text | clone | drop => simp [step?, hh] at hs
  | turn =>
    refine ⟨?_, List.append_nil _, turn_left hs⟩
    obtain ⟨text, rest, -, -, rfl⟩ | ⟨text, -, -, rfl⟩ := turn_cases hs <;> exact hh
  | shift blocked failures =>
    cases hs
    exact ⟨hh, List.append_nil _, rfl⟩

theorem abandoned_run (hh : x.handles = 0) (hr : run? r es x l = some (x', l')) :
    l'.accepted = l.accepted ∧ x'.left + es.count .turn = x.left := by
  induction es generalizing x l with
  | nil =>
    cases hr
    exact ⟨rfl, rfl⟩
  | cons e es ih =>
    obtain ⟨y, hs, hr⟩ := Option.bind_eq_some_iff.1 hr
    obtain ⟨hy, accepted, less⟩ := abandoned_step (l := l) hh hs
    obtain ⟨accepted', less'⟩ := ih hy hr
    refine ⟨accepted'.trans accepted, ?_⟩
    rw [List.count_cons, ← less, ← less', Nat.add_assoc]

theorem Balanced.settled_of_left (h : Balanced r n x l) (hl : x.left = 0) :
    l.settled.map Prod.fst = l.accepted.map r.redact := by
  unfold left at hl
  have queued : x.queue.queued = [] := List.eq_nil_of_length_eq_zero (by omega)
  have idle : x.queue.delivering.toList = [] := List.eq_nil_of_length_eq_zero (by omega)
  rw [← h.accepted, queued, ← h.handed, idle, List.append_nil, List.append_nil]

/-- After any events, the sink was handed the accepted notices, redacted and in their order, each
once, up to those that still wait, and it has those that it did not refuse. To tell a notice is
possible at any time, and it is lost when as many wait as the queue holds. Once no handle is left,
what was accepted stays, and enough turns of the background task bring all of it to the sink. -/
theorem run?_delivers (h : run? r es (opened n blocked failures) .empty = some (x, l)) :
    l.handed ++ x.queue.queued = l.accepted.map r.redact ∧
    l.settled.map Prod.fst ++ x.queue.delivering.toList = l.handed ∧
    x.sink.delivered = (l.settled.filter Prod.snd).map Prod.fst ∧
    (x.handles ≠ 0 → ∀ text, ∃ x', x.step? r (.notify text) = some x' ∧
      x'.sink = x.sink ∧ x'.queue.delivering = x.queue.delivering ∧
      (x'.queue = x.queue ↔ x.queue.queued.length = max 1 n)) ∧
    ((x.step? r .turn).isSome ↔
      x.left ≠ 0 ∧ (x.queue.delivering.isSome → x.sink.blocked = false)) ∧
    (x.handles = 0 → ∀ es' x' l', run? r es' x l = some (x', l') →
      l'.accepted = l.accepted ∧
      (x.left ≤ es'.count .turn → l'.settled.map Prod.fst = l.accepted.map r.redact)) := by
  have balanced : Balanced r n x l := Balanced.opened.run h
  refine ⟨balanced.accepted, balanced.handed, balanced.delivered, ?_, turn_isSome_iff, ?_⟩
  · intro held text
    refine ⟨_, if_neg held, rfl, notify_delivering x.queue text, ?_⟩
    have full : x.queue.isFull = true ↔ x.queue.queued.length = max 1 n := by
      have room := balanced.room
      rw [NoticeQueue.isFull, decide_eq_true_iff, balanced.capacity]
      omega
    exact notify_eq_self_iff.trans full
  · intro abandoned es' x' l' rest
    obtain ⟨accepted, less⟩ := abandoned_run abandoned rest
    refine ⟨accepted, fun enough => ?_⟩
    have none_left : x'.left = 0 := by omega
    rw [(balanced.run rest).settled_of_left none_left, accepted]

/-- The first notice is being delivered, and will fail. The second one waits, the third one was
lost, and both handles are gone. -/
def abandonedEvents : List Event :=
  [.notify "Login with hunter2-password", .turn, .clone, .notify "Done: Fix login",
    .notify "Done: Add logout", .drop, .shift true 1, .drop]

def abandonedOutlet : Outlet where
  queue := ⟨1, some "Login with [REDACTED]", ["Done: Fix login"]⟩
  sink := ⟨true, 1, []⟩
  handles := 0

def abandonedLedger : Ledger where
  accepted := ["Login with hunter2-password", "Done: Fix login"]
  handed := ["Login with [REDACTED]"]
  settled := []

theorem delivers_abandonedEvents :
    run? (.ofValues ["hunter2-password"]) abandonedEvents (opened 0 false 0) .empty
      = some (abandonedOutlet, abandonedLedger) ∧
    ∀ es x l,
      run? (.ofValues ["hunter2-password"]) es abandonedOutlet abandonedLedger = some (x, l) →
      3 ≤ es.count .turn →
      l.settled.map Prod.fst = ["Login with [REDACTED]", "Done: Fix login"] := by
  have told : run? (.ofValues ["hunter2-password"]) abandonedEvents (opened 0 false 0) .empty
      = some (abandonedOutlet, abandonedLedger) := by
    decide +kernel
  refine ⟨told, fun es x l rest enough => ?_⟩
  obtain ⟨-, -, -, -, -, abandoned⟩ := run?_delivers told
  obtain ⟨-, settled⟩ := abandoned rfl es x l rest
  rw [settled enough]
  decide +kernel

example : (run? (.ofValues []) [.shift false 1, .turn, .turn, .turn] abandonedOutlet
    abandonedLedger).map (fun (_, l) => l.settled)
      = some [("Login with [REDACTED]", false), ("Done: Fix login", true)] := by
  decide +kernel

end Outlet

end Foreman

/-!
# Waiting for idleness

Callers that wait for the executor to go idle are registered under ids counted from zero. Each has a
receiver, numbered like its id, that may be looked at or dropped at any time.
-/

namespace Foreman

/-- What a waiter's receiver has seen. -/
inductive Receiver where
  | waiting
  /-- Told that the executor is idle, and not yet looked at. -/
  | resolved
  /-- Nothing will come any more. -/
  | closed
  | dropped
deriving DecidableEq, Repr

/-- The ids of those that will be told, and every receiver that was ever handed out. -/
structure IdleRegistry where
  pending : List Nat
  receivers : List Receiver
deriving DecidableEq, Repr

namespace IdleRegistry

def empty : IdleRegistry := ⟨[], []⟩

def size (r : IdleRegistry) : Nat := r.pending.length

def receiver (r : IdleRegistry) (id : Nat) : Receiver := r.receivers[id]?.getD .dropped

def register (r : IdleRegistry) : Nat × IdleRegistry :=
  (r.receivers.length,
    ⟨r.pending ++ [r.receivers.length], r.receivers ++ [.waiting]⟩)

/-- A receiver that still waits is left without a sender; any other one stays as it is. -/
def closeReceiver : Receiver → Receiver
  | .waiting => .closed
  | x => x

/-- Takes a waiter out without telling it; whether it was still to be told. -/
def cancel (r : IdleRegistry) (id : Nat) : Bool × IdleRegistry :=
  if r.pending.contains id then
    (true, ⟨r.pending.erase id, r.receivers.modify id closeReceiver⟩)
  else (false, r)

/-- Tells a receiver that still waits. -/
def resolveReceiver : Receiver → Receiver
  | .waiting => .resolved
  | x => x

/-- Tells every pending waiter; how many of them were still listening. -/
def resolveAll (r : IdleRegistry) : Nat × IdleRegistry :=
  (r.pending.countP (r.receiver · = .waiting),
    ⟨[], r.receivers.mapIdx fun id x => if r.pending.contains id then resolveReceiver x else x⟩)

def drop (r : IdleRegistry) (id : Nat) : IdleRegistry :=
  { r with receivers := r.receivers.set id .dropped }

/-- What a look at a receiver shows; the news of idleness is shown once. -/
def look (r : IdleRegistry) (id : Nat) : Receiver × IdleRegistry :=
  match r.receiver id with
  | .resolved => (.resolved, { r with receivers := r.receivers.set id .closed })
  | x => (x, r)

@[simp] theorem pending_resolveAll (r : IdleRegistry) : r.resolveAll.2.pending = [] := rfl

@[simp] theorem pending_drop (r : IdleRegistry) (id : Nat) : (r.drop id).pending = r.pending := rfl

@[simp] theorem pending_look (r : IdleRegistry) (id : Nat) :
    (r.look id).2.pending = r.pending := by
  unfold look
  split <;> rfl

theorem pending_cancel (r : IdleRegistry) (id : Nat) :
    (r.cancel id).2.pending = r.pending.erase id := by
  unfold cancel
  split
  · rfl
  · rename_i h
    exact (List.erase_of_not_mem (by simpa using h)).symm

/-- Whoever is told was pending and still listening. -/
theorem receiver_resolveAll (r : IdleRegistry) (id : Nat) :
    r.resolveAll.2.receiver id =
      if id ∈ r.pending then resolveReceiver (r.receiver id) else r.receiver id := by
  simp only [receiver, resolveAll, List.getElem?_mapIdx, List.contains_iff_mem]
  cases r.receivers[id]? with
  | none => simp [resolveReceiver]
  | some x => simp

theorem receiver_register (r : IdleRegistry) (id : Nat) :
    r.register.2.receiver id = if id = r.receivers.length then .waiting else r.receiver id := by
  unfold receiver register
  by_cases h : id = r.receivers.length
  · simp [h]
  · rw [if_neg h]
    by_cases hl : id < r.receivers.length
    · rw [List.getElem?_append_left hl]
    · have beyond : (r.receivers ++ [Receiver.waiting]).length ≤ id := by
        rw [List.length_append]
        exact Nat.lt_of_le_of_ne (Nat.le_of_not_lt hl) (Ne.symm h)
      rw [List.getElem?_eq_none beyond, List.getElem?_eq_none (Nat.le_of_not_lt hl)]

theorem receiver_drop (r : IdleRegistry) (id other : Nat) :
    (r.drop id).receiver other = if other = id then .dropped else r.receiver other := by
  unfold receiver drop
  by_cases h : other = id
  · subst h
    by_cases hl : other < r.receivers.length <;> simp [hl]
  · simp [h, List.getElem?_set_ne (Ne.symm h)]

theorem receiver_look (r : IdleRegistry) (id other : Nat) :
    (r.look id).2.receiver other =
      if other = id ∧ r.receiver id = .resolved then .closed else r.receiver other := by
  unfold look
  split
  · rename_i told
    by_cases h : other = id
    · subst h
      have hl : other < r.receivers.length := by
        refine Nat.lt_of_not_le fun hl => ?_
        simp [receiver, List.getElem?_eq_none hl] at told
      rw [if_pos ⟨rfl, told⟩]
      simp [receiver, hl]
    · simp [receiver, h, List.getElem?_set_ne (Ne.symm h)]
  · rename_i untold
    rw [if_neg fun h => untold h.2]

theorem receiver_cancel (r : IdleRegistry) (id other : Nat) :
    (r.cancel id).2.receiver other =
      if other = id ∧ id ∈ r.pending then closeReceiver (r.receiver other)
      else r.receiver other := by
  simp only [cancel, List.contains_iff_mem]
  split
  · rename_i hp
    by_cases h : other = id
    · subst h
      cases hr : r.receivers[other]? <;> simp [receiver, hr, hp, closeReceiver]
    · simp [receiver, h, Ne.symm h]
  · rename_i hp
    rw [if_neg fun h => hp h.2]

end IdleRegistry

end Foreman

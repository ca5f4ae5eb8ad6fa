import Foreman.Rehearsal.Cast

namespace Foreman.Rehearsal

/-- What becomes of a look for the oldest queued task. -/
inductive Lookup where
  /-- It answers, after a delay, what it saw before. -/
  | answers (delay : Nat)
  | fails (fault : Fault)
  | breaks (panic : Panic)

structure Script where
  turn : Nat → Turn
  verify : String → Except Panic Bool
  lookup : Nat → Lookup
  /-- What strikes a write of a status. -/
  writeFault? : Task.Status → Option (Answer Unit)
  requeueFault? : Option Fault
  preparation : Nat → Timed (Except Fault Unit)

/-- What a script plays on, and what was asked so far. -/
structure World where
  book : TaskBook
  now : Instant
  directives : List String
  verifications : List String
  lookups : Nat
  preparations : Nat

namespace World

def ofBook (b : TaskBook) (now : Instant) : World := ⟨b, now, [], [], 0, 0⟩

/-- A write that no fault strikes. -/
def write (w : World) (id : String) (u : TaskUpdate) : Except StoreError Unit × World :=
  match w.book.update? id u w.now with
  | some book => (.ok (), { w with book })
  | none => (.error (.notFound id), w)

end World

namespace Script

def lookUp (s : Script) (w : World) : Timed (Answer (Option Task)) × World :=
  let found := w.book.oldestQueued?
  let next := { w with lookups := w.lookups + 1 }
  match s.lookup w.lookups with
  | .answers delay => (⟨delay, .ok found⟩, next)
  | .fails f => (.atOnce (.failed f), next)
  | .breaks p => (.atOnce (.panicked p), next)

def requeue (s : Script) (w : World) : Except StoreError Nat × World :=
  match s.requeueFault? with
  | some f => (.error (.other f), w)
  | none => (.ok w.book.strandedCount, { w with book := w.book.requeueStranded })

def write (s : Script) (id : String) (u : TaskUpdate) (w : World) : Answer Unit × World :=
  match s.writeFault? u.status with
  | some a => (a, w)
  | none =>
    match w.write id u with
    | (.ok (), w) => (.ok (), w)
    | (.error e, w) => (.failed e.fault, w)

/-- A verification that breaks off is not counted among those asked for. -/
def verification (s : Script) (hash : String) (w : World) : Except Panic Bool × World :=
  match s.verify hash with
  | .ok b => (.ok b, { w with verifications := w.verifications ++ [hash] })
  | .error p => (.error p, w)

def cast (s : Script) : Cast World where
  prepare w := (s.preparation w.preparations, { w with preparations := w.preparations + 1 })
  requeue := s.requeue
  fetch := s.lookUp
  write := s.write
  work d w := (s.turn w.directives.length, { w with directives := w.directives ++ [d] })
  verify := s.verification

end Script

end Foreman.Rehearsal

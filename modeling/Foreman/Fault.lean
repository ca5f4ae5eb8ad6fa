namespace Foreman

structure Fault where
  contexts : List String
  cause : String
deriving DecidableEq, Repr

namespace Fault

def of (cause : String) : Fault := ⟨[], cause⟩

/-- The same fault, seen by a caller who was doing something of its own. -/
def within (f : Fault) (doing : String) : Fault := ⟨doing :: f.contexts, f.cause⟩

/-- What the fault says to someone who only wants the outermost reason. -/
def outermost (f : Fault) : String := f.contexts.headD f.cause

/-- Every reason, outermost first. -/
def full (f : Fault) : String := ": ".intercalate (f.contexts ++ [f.cause])

@[simp] theorem outermost_within (f : Fault) (doing : String) :
    (f.within doing).outermost = doing := rfl

end Fault

inductive Panic where
  | message (text : String)
  | other
deriving DecidableEq, Repr

def Panic.text : Panic → String
  | message s => s
  | other => "unknown panic"

inductive Answer (α : Type) where
  | ok (a : α)
  | failed (fault : Fault)
  | panicked (panic : Panic)
deriving DecidableEq, Repr

end Foreman

import Foreman.Fault

namespace Foreman

structure Capture where
  kept : List UInt8
  dropped : Nat
deriving DecidableEq, Repr

namespace Capture

def empty : Capture := ⟨[], 0⟩

/-- Takes another chunk. -/
def read (limit : Nat) (c : Capture) (chunk : List UInt8) : Capture :=
  let room := limit - c.kept.length
  if 0 < room then
    let taken := min chunk.length room
    ⟨c.kept ++ chunk.take taken, c.dropped + (chunk.length - taken)⟩
  else { c with dropped := c.dropped + chunk.length }

/-- Goes through what the reads of a stream give. One that gives nothing is at its end. -/
def drain (limit : Nat) (c : Capture) : List (Except Fault (List UInt8)) → Except Fault Capture
  | [] => .ok c
  | .error f :: _ => .error (f.within "read output")
  | .ok [] :: _ => .ok c
  | .ok (b :: r) :: reads => drain limit (c.read limit (b :: r)) reads

/-- What comes of a stream. After a read that failed it is as if there had been no output. -/
def ofReads (limit : Nat) (reads : List (Except Fault (List UInt8))) : Capture :=
  match drain limit empty reads with
  | .ok c => c
  | .error _ => empty

/-- How much a read can give. -/
def chunkSize : Nat := 8192

/-- A stream in chunks that are as large as they can be. -/
def chunks : List UInt8 → List (List UInt8)
  | [] => []
  | b :: r => (b :: r.take (chunkSize - 1)) :: chunks (r.drop (chunkSize - 1))
termination_by s => s.length
decreasing_by
  simp only [List.length_drop, List.length_cons]
  omega

def ofStream (limit : Nat) (stream : List UInt8) : Capture :=
  ofReads limit ((chunks stream).map .ok)

end Capture

end Foreman

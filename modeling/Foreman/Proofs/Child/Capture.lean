import Foreman.Child.Capture

namespace Foreman.Capture

variable {limit : Nat} {stream : List UInt8} {chunks chunks' : List (List UInt8)}

/-- The first bytes of a stream, with the number of those beyond them. -/
def cut (limit : Nat) (stream : List UInt8) : Capture :=
  ⟨stream.take limit, stream.length - limit⟩

/-- A way in which a stream may be read. -/
structure Splits (stream : List UInt8) (chunks : List (List UInt8)) : Prop where
  whole : chunks.flatten = stream
  filled : ∀ chunk ∈ chunks, chunk ≠ []
  bounded : ∀ chunk ∈ chunks, chunk.length ≤ chunkSize

theorem cut_nil (limit : Nat) : cut limit [] = empty := by
  rw [cut, List.take_nil, List.length_nil, Nat.zero_sub]
  rfl

/-- The chunk may end before the limit, begin behind it or lie across it. -/
theorem read_cut (limit : Nat) (stream chunk : List UInt8) :
    (cut limit stream).read limit chunk = cut limit (stream ++ chunk) := by
  have kept : (stream ++ chunk).take limit =
      stream.take limit ++ chunk.take (limit - stream.length) := List.take_append
  simp only [read, cut, kept, List.length_take, List.length_append]
  split
  · have taken : chunk.take (min chunk.length (limit - min limit stream.length)) =
        chunk.take (limit - stream.length) := by
      apply List.take_eq_take_iff.2
      omega
    rw [taken]
    congr 1
    omega
  · have none : limit - stream.length = 0 := by omega
    rw [none, List.take_zero, List.append_nil]
    congr 1
    omega

/-- What has been read so far is all that the next reads go by. -/
theorem drain_map_append (filled : ∀ chunk ∈ chunks, chunk ≠ [])
    (later : List (Except Fault (List UInt8))) :
    drain limit (cut limit stream) (chunks.map .ok ++ later) =
      drain limit (cut limit (stream ++ chunks.flatten)) later := by
  induction chunks generalizing stream with
  | nil => rw [List.map_nil, List.nil_append, List.flatten_nil, List.append_nil]
  | cons chunk chunks ih =>
    have later := @ih (stream ++ chunk) fun c hc => filled c (List.mem_cons_of_mem chunk hc)
    cases chunk with
    | nil => exact (filled [] List.mem_cons_self rfl).elim
    | cons b r =>
      rw [List.map_cons, List.cons_append, drain, read_cut, later, List.flatten_cons,
        List.append_assoc]

theorem Splits.drain (h : Splits stream chunks) (limit : Nat)
    (later : List (Except Fault (List UInt8))) :
    drain limit empty (chunks.map .ok ++ .ok [] :: later) = .ok (cut limit stream) := by
  rw [← cut_nil limit, drain_map_append h.filled, List.nil_append, h.whole]
  rfl

theorem splits_chunks (stream : List UInt8) : Splits stream (Capture.chunks stream) := by
  induction stream using Capture.chunks.induct with
  | case1 =>
    rw [Capture.chunks]
    exact ⟨rfl, nofun, nofun⟩
  | case2 b r ih =>
    rw [Capture.chunks]
    constructor
    · rw [List.flatten_cons, ih.whole, List.cons_append, List.take_append_drop]
    · intro chunk h
      rcases List.mem_cons.1 h with rfl | h
      · exact List.cons_ne_nil _ _
      · exact ih.filled chunk h
    · intro chunk h
      rcases List.mem_cons.1 h with rfl | h
      · rw [List.length_cons, List.length_take, chunkSize]
        omega
      · exact ih.bounded chunk h

theorem ofStream_eq (limit : Nat) (stream : List UInt8) :
    ofStream limit stream = cut limit stream := by
  have split := splits_chunks stream
  have drained := @drain_map_append limit [] _ split.filled []
  rw [cut_nil, List.append_nil, List.nil_append, split.whole] at drained
  rw [ofStream, ofReads, drained]
  rfl

/-- The first bytes are kept, up to the limit, and the bytes behind them are counted, however the
stream is split into reads. Nothing is read behind its end. -/
theorem drain_indifferent (h : Splits stream chunks) (h' : Splits stream chunks') (limit : Nat)
    (later later' : List (Except Fault (List UInt8))) :
    ∃ c, drain limit empty (chunks.map .ok ++ .ok [] :: later) = .ok c ∧
      c.kept = stream.take (min limit stream.length) ∧
      c.dropped = stream.length - min limit stream.length ∧
      drain limit empty (chunks'.map .ok ++ .ok [] :: later') = .ok c ∧
      ofStream limit stream = c := by
  have kept : stream.take limit = stream.take (min limit stream.length) := by
    apply List.take_eq_take_iff.2
    omega
  have dropped : stream.length - limit = stream.length - min limit stream.length := by omega
  exact ⟨cut limit stream, h.drain limit later, kept, dropped, h'.drain limit later',
    ofStream_eq limit stream⟩

/-- The second of the small reads lies across the limit. -/
theorem drain_indifferent_digits :
    Splits [48, 49, 50, 51, 52, 53] [[48, 49, 50], [51, 52], [53]] ∧
      Splits [48, 49, 50, 51, 52, 53] [[48, 49, 50, 51, 52, 53]] ∧
      drain 4 empty [.ok [48, 49, 50], .ok [51, 52], .ok [53], .ok []] =
        drain 4 empty [.ok [48, 49, 50, 51, 52, 53], .ok []] ∧
      ofStream 4 [48, 49, 50, 51, 52, 53] = ⟨[48, 49, 50, 51], 2⟩ := by
  have small : Splits [48, 49, 50, 51, 52, 53] [[48, 49, 50], [51, 52], [53]] :=
    ⟨rfl, by decide, by decide⟩
  have large : Splits [48, 49, 50, 51, 52, 53] [[48, 49, 50, 51, 52, 53]] :=
    ⟨rfl, by decide, by decide⟩
  obtain ⟨⟨kept, dropped⟩, first, rfl, rfl, second, whole⟩ := drain_indifferent small large 4 [] []
  exact ⟨small, large, first.trans second.symm, whole⟩

end Foreman.Capture

import Foreman.Proofs.Text.Search

/-!
# Texts as bytes

In memory a text is the bytes of its characters, one after another. Offsets count bytes there, and
a part of the text may only be taken from the beginning of a character to the beginning of the same
or a later one. To look for a word among the bytes is to look for it among the characters, since no
byte within a character begins one.
-/

namespace Foreman

namespace Bytes

/-- A byte that stands in a character behind its first one. -/
def isContinuation (b : UInt8) : Bool := 0x80 ≤ b && b ≤ 0xBF

/-- Whether a character begins at an offset, or the text ends there. -/
def isBoundary (t : List UInt8) (i : Nat) : Bool :=
  match t[i]? with
  | some b => !isContinuation b
  | none => i == t.length

/-- Why a part of a text cannot be taken. -/
inductive SliceFault where
  | backwards
  | noBoundary
deriving DecidableEq, Repr

/-- The part between two offsets. -/
def slice (t : List UInt8) (i j : Nat) : Except SliceFault (List UInt8) :=
  if j < i then .error .backwards
  else if isBoundary t i && isBoundary t j then .ok ((t.take j).drop i)
  else .error .noBoundary

/-- The number of bytes before the first occurrence of `needle`. -/
def offset? (needle : List UInt8) : List UInt8 → Option Nat
  | [] => if needle.isEmpty then some 0 else none
  | b :: t => if needle.isPrefixOf (b :: t) then some 0 else (offset? needle t).map (· + 1)

/-- The occurrences in bytes that begin at offset `pos`; the first `skip` of them are passed
over. -/
def offsetsFrom (needle : List UInt8) : Nat → Nat → List UInt8 → List Nat
  | _, _, [] => []
  | pos, skip + 1, _ :: t => offsetsFrom needle (pos + 1) skip t
  | pos, 0, b :: t =>
    if needle.isPrefixOf (b :: t) then pos :: offsetsFrom needle (pos + 1) (needle.length - 1) t
    else offsetsFrom needle (pos + 1) 0 t

/-- The offsets of the occurrences that do not overlap, of a `needle` that is not empty. -/
def offsets (needle t : List UInt8) : List Nat := offsetsFrom needle 0 0 t

variable {w t u : List UInt8}

theorem offsetsFrom_skip (w u t : List UInt8) (pos skip : Nat) :
    offsetsFrom w pos (u.length + skip) (u ++ t) = offsetsFrom w (pos + u.length) skip t := by
  induction u generalizing pos with
  | nil => rw [List.length_nil, Nat.zero_add, List.nil_append, Nat.add_zero]
  | cons b u ih =>
    rw [List.cons_append, List.length_cons, Nat.add_right_comm, offsetsFrom, ih, Nat.add_assoc,
      Nat.add_comm 1]

/-- Nothing is found at bytes that differ from the first one of the word. -/
theorem not_isPrefixOf_of_ne {x : UInt8} (ne : b ≠ x) : ¬ (b :: w).isPrefixOf (x :: t) = true := by
  rw [List.isPrefixOf_iff_prefix, List.cons_prefix_cons]
  exact fun h => ne h.1

theorem offset?_append (lacks : b ∉ u) (t : List UInt8) :
    offset? (b :: w) (u ++ t) = (offset? (b :: w) t).map (u.length + ·) := by
  induction u with
  | nil => simp
  | cons x u ih =>
    obtain ⟨ne, lacks⟩ := List.ne_and_not_mem_of_not_mem_cons lacks
    rw [List.cons_append, offset?, if_neg (not_isPrefixOf_of_ne ne), ih lacks, Option.map_map]
    congr 1
    funext i
    simp only [Function.comp_apply, List.length_cons]
    omega

theorem offsetsFrom_append (lacks : b ∉ u) (pos : Nat) (t : List UInt8) :
    offsetsFrom (b :: w) pos 0 (u ++ t) = offsetsFrom (b :: w) (pos + u.length) 0 t := by
  induction u generalizing pos with
  | nil => rfl
  | cons x u ih =>
    obtain ⟨ne, lacks⟩ := List.ne_and_not_mem_of_not_mem_cons lacks
    rw [List.cons_append, offsetsFrom, if_neg (not_isPrefixOf_of_ne ne), ih lacks,
      List.length_cons, Nat.add_assoc, Nat.add_comm 1]

end Bytes

namespace Text

open Bytes (isContinuation isBoundary slice)

variable {w s : List Char}

/-- The bytes of a text. -/
def bytes (s : List Char) : List UInt8 := s.flatMap String.utf8EncodeChar

/-- The offset among the bytes of a place among the characters. -/
def place (s : List Char) (i : Nat) : Nat := (bytes (s.take i)).length

@[simp] theorem bytes_nil : bytes [] = [] := rfl

theorem bytes_cons (c : Char) (s : List Char) :
    bytes (c :: s) = String.utf8EncodeChar c ++ bytes s := rfl

theorem bytes_append (a b : List Char) : bytes (a ++ b) = bytes a ++ bytes b :=
  List.flatMap_append

theorem isContinuation_ofNat (small : n < 256) :
    isContinuation (UInt8.ofNat n) = decide (128 ≤ n ∧ n ≤ 191) := by
  simp [isContinuation, UInt8.le_iff_toNat_le, Nat.mod_eq_of_lt small]

/-- Six bits behind the first ones of a character. -/
theorem isContinuation_low (n : Nat) : isContinuation (UInt8.ofNat (n % 64 + 128)) = true := by
  rw [isContinuation_ofNat (by omega), decide_eq_true_eq]
  omega

/-- A character begins with its first byte and with no other one. -/
theorem exists_first_byte (c : Char) :
    ∃ b inner, String.utf8EncodeChar c = b :: inner ∧ isContinuation b = false ∧
      ∀ x ∈ inner, isContinuation x = true := by
  have first (n : Nat) (small : n < 256) (begins : n < 128 ∨ 192 ≤ n) :
      isContinuation (UInt8.ofNat n) = false := by
    rw [isContinuation_ofNat small, decide_eq_false_iff_not]
    omega
  have later := isContinuation_low
  unfold String.utf8EncodeChar
  generalize c.val.toNat = v
  dsimp only
  split
  · exact ⟨_, _, rfl, first v (by omega) (by omega), List.forall_mem_nil _⟩
  split
  · exact ⟨_, _, rfl, first _ (by omega) (by omega), List.forall_mem_singleton.2 (later _)⟩
  split
  · exact ⟨_, _, rfl, first _ (by omega) (by omega),
      List.forall_mem_cons.2 ⟨later _, List.forall_mem_singleton.2 (later _)⟩⟩
  · exact ⟨_, _, rfl, first _ (by omega) (by omega), List.forall_mem_cons.2
      ⟨later _, List.forall_mem_cons.2 ⟨later _, List.forall_mem_singleton.2 (later _)⟩⟩⟩

theorem exists_first_byte_of_ne_nil (ne : s ≠ []) :
    ∃ b t, bytes s = b :: t ∧ isContinuation b = false := by
  cases s with
  | nil => exact (ne rfl).elim
  | cons c s =>
    obtain ⟨b, inner, code, begins, -⟩ := exists_first_byte c
    exact ⟨b, inner ++ bytes s, by rw [bytes_cons, code]; rfl, begins⟩

theorem prefix_bytes_iff : bytes w <+: bytes s ↔ w <+: s := by
  constructor
  · rintro ⟨t, ht⟩
    apply List.isPrefix_of_utf8Encode_append_eq_utf8Encode t.toByteArray
    rw [List.utf8Encode, ← List.toByteArray_append]
    exact congrArg List.toByteArray ht
  · rintro ⟨r, rfl⟩
    exact ⟨bytes r, (bytes_append w r).symm⟩

theorem isPrefixOf_bytes (w s : List Char) : (bytes w).isPrefixOf (bytes s) = w.isPrefixOf s := by
  rw [Bool.eq_iff_iff, List.isPrefixOf_iff_prefix, List.isPrefixOf_iff_prefix, prefix_bytes_iff]

theorem bytes_take (s : List Char) (i : Nat) : bytes (s.take i) = (bytes s).take (place s i) := by
  have whole := bytes_append (s.take i) (s.drop i)
  rw [List.take_append_drop] at whole
  rw [whole, place, List.take_left']
  rfl

theorem bytes_drop (s : List Char) (i : Nat) : bytes (s.drop i) = (bytes s).drop (place s i) := by
  have whole := bytes_append (s.take i) (s.drop i)
  rw [List.take_append_drop] at whole
  rw [whole, place, List.drop_left']
  rfl

theorem isBoundary_place (s : List Char) (i : Nat) : isBoundary (bytes s) (place s i) = true := by
  have next := congrArg List.head? (bytes_drop s i)
  rw [List.head?_drop] at next
  rw [isBoundary, ← next]
  cases rest : s.drop i with
  | nil =>
    have all : s.take i = s := List.take_of_length_le (List.drop_eq_nil_iff.1 rest)
    simp [place, all]
  | cons c r =>
    obtain ⟨b, t, code, begins⟩ := exists_first_byte_of_ne_nil (List.cons_ne_nil c r)
    simp [code, begins]

theorem place_add (s : List Char) (i n : Nat) :
    place s (i + n) = place s i + (bytes ((s.drop i).take n)).length := by
  rw [place, place, List.take_add, bytes_append, List.length_append]

theorem place_length (s : List Char) : place s s.length = (bytes s).length := by
  rw [place, List.take_length]

theorem place_le (s : List Char) (h : i ≤ j) : place s i ≤ place s j := by
  obtain ⟨n, rfl⟩ := Nat.exists_eq_add_of_le h
  rw [place_add]
  exact Nat.le_add_right ..

theorem place_lt_iff (hj : j ≤ s.length) : place s i < place s j ↔ i < j := by
  constructor
  · intro less
    apply Nat.lt_of_not_le
    intro h
    exact Nat.not_lt.2 (place_le s h) less
  · intro h
    obtain ⟨n, rfl⟩ := Nat.exists_eq_add_of_lt h
    have ne : (s.drop i).take (n + 1) ≠ [] := by
      rw [← List.length_pos_iff, List.length_take, List.length_drop]
      omega
    obtain ⟨b, t, code, -⟩ := exists_first_byte_of_ne_nil ne
    rw [Nat.add_assoc, place_add, code, List.length_cons]
    omega

/-- A word ends as many bytes behind its beginning as it has. -/
theorem place_add_length (found : w <+: s.drop i) :
    place s (i + w.length) = place s i + (bytes w).length := by
  rw [place_add, ← List.prefix_iff_eq_take.1 found]

/-- What stands between two places can be taken, if they do not stand the other way round. -/
theorem slice_place (s : List Char) (h : i ≤ j) :
    slice (bytes s) (place s i) (place s j) = .ok (bytes ((s.take j).drop i)) := by
  have same : place (s.take j) i = place s i := by
    rw [place, place, List.take_take, Nat.min_eq_left h]
  rw [slice, if_neg (Nat.not_lt.2 (place_le s h)), isBoundary_place, isBoundary_place,
    Bool.and_self, if_pos rfl, bytes_drop, same, bytes_take]

section Search

variable (ne : w ≠ [])
include ne

/-- The word does not begin within a character. -/
theorem exists_inner_bytes (c : Char) :
    ∃ b t x inner, bytes w = b :: t ∧ String.utf8EncodeChar c = x :: inner ∧ b ∉ inner := by
  obtain ⟨b, t, word, begins⟩ := exists_first_byte_of_ne_nil ne
  obtain ⟨x, inner, code, -, within⟩ := exists_first_byte c
  refine ⟨b, t, x, inner, word, code, fun inside => ?_⟩
  rw [within b inside] at begins
  cases begins

theorem offset?_bytes_cons (c : Char) (s : List Char) :
    Bytes.offset? (bytes w) (bytes (c :: s)) =
      if w <+: c :: s then some 0
      else (Bytes.offset? (bytes w) (bytes s)).map ((String.utf8EncodeChar c).length + ·) := by
  obtain ⟨b, t, x, inner, word, code, lacks⟩ := exists_inner_bytes ne c
  have same := isPrefixOf_bytes w (c :: s)
  rw [bytes_cons, code, List.cons_append] at same ⊢
  rw [Bytes.offset?, same, word, Bytes.offset?_append lacks, Option.map_map]
  simp only [List.isPrefixOf_iff_prefix, List.length_cons, Function.comp_def,
    Nat.add_right_comm _ _ 1]

theorem offsetsFrom_bytes_cons (absent : ¬ w <+: c :: s) (pos : Nat) :
    Bytes.offsetsFrom (bytes w) pos 0 (bytes (c :: s)) =
      Bytes.offsetsFrom (bytes w) (pos + (String.utf8EncodeChar c).length) 0 (bytes s) := by
  obtain ⟨b, t, x, inner, word, code, lacks⟩ := exists_inner_bytes ne c
  have here : ¬ (bytes w).isPrefixOf (bytes (c :: s)) = true := by
    rwa [isPrefixOf_bytes, List.isPrefixOf_iff_prefix]
  rw [bytes_cons, code, List.cons_append] at here ⊢
  rw [Bytes.offsetsFrom, if_neg here, word, Bytes.offsetsFrom_append lacks, List.length_cons,
    Nat.add_assoc, Nat.add_comm 1]

theorem offsetsFrom_bytes_self (begins : w <+: c :: s) (pos : Nat) :
    Bytes.offsetsFrom (bytes w) pos 0 (bytes (c :: s)) =
      pos :: Bytes.offsetsFrom (bytes w) (pos + (String.utf8EncodeChar c).length)
        (bytes (s.take (w.length - 1))).length (bytes s) := by
  obtain ⟨x, inner, code, -, -⟩ := exists_first_byte c
  have here : (bytes w).isPrefixOf (bytes (c :: s)) = true := by
    rwa [isPrefixOf_bytes, List.isPrefixOf_iff_prefix]
  have word : w = c :: s.take (w.length - 1) := by
    obtain ⟨d, w, rfl⟩ := List.exists_cons_of_ne_nil ne
    obtain ⟨rfl, rest⟩ := List.cons_prefix_cons.1 begins
    exact congrArg (d :: ·) (List.prefix_iff_eq_take.1 rest)
  have length : (bytes w).length - 1 = inner.length + (bytes (s.take (w.length - 1))).length := by
    conv => lhs; rw [word, bytes_cons, code]
    simp
  rw [bytes_cons, code, List.cons_append] at here ⊢
  rw [Bytes.offsetsFrom, if_pos here, length, Bytes.offsetsFrom_skip, List.length_cons,
    Nat.add_assoc, Nat.add_comm 1]

/-- Behind a part of the text the same occurrences are found, and as much is passed over. -/
theorem offsetsFrom_bytes (a s : List Char) (skip : Nat) :
    Bytes.offsetsFrom (bytes w) (bytes a).length (bytes (s.take skip)).length (bytes s) =
      (offsetsFrom w a.length skip s).map (place (a ++ s)) := by
  induction s generalizing a skip with
  | nil => simp [Bytes.offsetsFrom, offsetsFrom, ne]
  | cons c s ih =>
    have rest := ih (a ++ [c])
    simp only [bytes_append, List.length_append, bytes_cons, bytes_nil, List.append_nil,
      List.length_singleton, List.append_assoc, List.singleton_append] at rest
    cases skip with
    | succ skip =>
      rw [List.take_succ_cons, bytes_cons, List.length_append, bytes_cons, Bytes.offsetsFrom_skip,
        rest, offsetsFrom]
    | zero =>
      rw [offsetsFrom, List.take_zero, bytes_nil, List.length_nil]
      split
      · rename_i begins
        have here : place (a ++ c :: s) a.length = (bytes a).length := by
          rw [place, List.take_left]
        rw [offsetsFrom_bytes_self ne (List.isPrefixOf_iff_prefix.1 begins), rest, List.map_cons,
          here]
      · rename_i absent
        rw [List.isPrefixOf_iff_prefix] at absent
        rw [offsetsFrom_bytes_cons ne absent, ← rest, List.take_zero, bytes_nil, List.length_nil]

theorem offsets_bytes (s : List Char) :
    Bytes.offsets (bytes w) (bytes s) = (offsets w s).map (place s) :=
  offsetsFrom_bytes ne [] s 0

end Search

theorem offset?_bytes (w s : List Char) :
    Bytes.offset? (bytes w) (bytes s) = (offset? w s).map (place s) := by
  cases w with
  | nil =>
    have first : Bytes.offset? [] (bytes s) = some 0 := by cases bytes s <;> rfl
    have first' : offset? [] s = some 0 := by cases s <;> rfl
    rw [bytes_nil, first, first']
    rfl
  | cons d w =>
    have ne : d :: w ≠ [] := List.cons_ne_nil d w
    induction s with
    | nil =>
      obtain ⟨b, t, word, -⟩ := exists_first_byte_of_ne_nil ne
      simp [Bytes.offset?, offset?, word]
    | cons c s ih =>
      rw [offset?_bytes_cons ne, ih, offset?]
      simp only [List.isPrefixOf_iff_prefix]
      split
      · rfl
      · rw [Option.map_map, Option.map_map]
        congr 1
        funext i
        simp [place, bytes_cons]

end Text

end Foreman

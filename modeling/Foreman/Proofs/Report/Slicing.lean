import Foreman.Proofs.Report.Block
import Foreman.Proofs.Text.Bytes

namespace Foreman

open Bytes (SliceFault slice)

namespace Marker

variable {opening closing text : List Char}

/-- The first of these offsets at which no closing marker begins. -/
def firstOpening (closing t : List UInt8) : List Nat → Except SliceFault (Option Nat)
  | [] => return none
  | i :: is => do
    let rest ← slice t i t.length
    if closing.isPrefixOf rest then firstOpening closing t is else return some i

/-- Cuts the block out of the bytes of a text. -/
def extract (opening closing t : List UInt8) : Except SliceFault (Option (List UInt8)) := do
  let some start ← firstOpening closing t (Bytes.offsets opening t) | return none
  let some stop := Bytes.offset? closing t | return none
  let first := start + opening.length
  if stop < first then return none else return some (← slice t first stop)

/-- All of the text in a block, with the blanks around it. -/
def inner? (opening closing text : List Char) : Option (List Char) := do
  let start ← openingOffset? opening closing text
  let stop ← Text.offset? closing text
  let first := start + opening.length
  if stop < first then none else some ((text.take stop).drop first)

theorem between?_eq_map (opening closing text : List Char) :
    between? opening closing text = (inner? opening closing text).map Text.trim := by
  rw [between?, inner?]
  cases openingOffset? opening closing text with
  | none => rfl
  | some start =>
    cases Text.offset? closing text with
    | none => rfl
    | some stop =>
      simp only [Option.bind_eq_bind, Option.bind_some]
      split <;> rfl

theorem firstOpening_bytes {is : List Nat} (closing text : List Char)
    (within : ∀ i ∈ is, i ≤ text.length) :
    firstOpening (Text.bytes closing) (Text.bytes text) (is.map (Text.place text)) =
      .ok ((is.find? fun i => !closing.isPrefixOf (text.drop i)).map (Text.place text)) := by
  induction is with
  | nil => rfl
  | cons i is ih =>
    obtain ⟨here, later⟩ := List.forall_mem_cons.1 within
    have rest := Text.slice_place text here
    rw [Text.place_length, List.take_length] at rest
    rw [List.map_cons, firstOpening, rest]
    simp only [bind, Except.bind, Text.isPrefixOf_bytes]
    split
    · rename_i closes
      rw [ih later, List.find?_cons_of_neg (by simp [closes])]
    · rename_i opens
      rw [List.find?_cons_of_pos (by simp [opens])]
      rfl

theorem le_length_of_mem_offsets (ne : opening ≠ []) (h : i ∈ Text.offsets opening text) :
    i + opening.length ≤ text.length ∧ opening <+: text.drop i := by
  obtain ⟨k, rfl, found⟩ := Text.prefix_of_mem_offsetsFrom h
  have room := found.length_le
  have pos := List.length_pos_iff.2 ne
  rw [List.length_drop] at room
  rw [Nat.zero_add]
  exact ⟨by omega, found⟩

/-- Every cut is made. -/
theorem extract_bytes (ne : opening ≠ []) (closing text : List Char) :
    extract (Text.bytes opening) (Text.bytes closing) (Text.bytes text) =
      .ok ((inner? opening closing text).map Text.bytes) := by
  have within : ∀ i ∈ Text.offsets opening text, i ≤ text.length := fun i h =>
    Nat.le_of_add_right_le (le_length_of_mem_offsets ne h).1
  have opens := firstOpening_bytes closing text within
  rw [extract, Text.offsets_bytes ne, opens, Text.offset?_bytes, inner?, openingOffset?]
  cases start : (Text.offsets opening text).find? fun i => !closing.isPrefixOf (text.drop i) with
  | none => rfl
  | some i =>
    cases Text.offset? closing text with
    | none => rfl
    | some n =>
      obtain ⟨bound, found⟩ := le_length_of_mem_offsets ne (List.mem_of_find?_eq_some start)
      simp only [Option.map_some, bind, Except.bind, Option.bind_some,
        ← Text.place_add_length found, Text.place_lt_iff bound]
      split
      · rfl
      · rename_i order
        rw [Text.slice_place text (Nat.le_of_not_lt order)]
        rfl

theorem between?_eq_some_iff (ne : opening ≠ []) :
    between? opening closing text = some body ↔
      ∃ before after lead inner, Text.FirstAt closing text before after ∧
        Text.FirstAt opening before lead inner ∧ body = Text.trim inner := by
  rw [between?_eq ne, Option.bind_eq_some_iff]
  constructor
  · rintro ⟨⟨before, after⟩, stop, rest⟩
    obtain ⟨⟨lead, inner⟩, start, rfl⟩ := Option.map_eq_some_iff.1 rest
    exact ⟨before, after, lead, inner, Text.cut?_eq_some_iff.1 stop,
      Text.cut?_eq_some_iff.1 start, rfl⟩
  · rintro ⟨before, after, lead, inner, stop, start, rfl⟩
    refine ⟨(before, after), Text.cut?_eq_some_iff.2 stop, ?_⟩
    rw [Text.cut?_eq_some_iff.2 start]
    rfl

theorem between?_eq_none_iff (ne : opening ≠ []) :
    between? opening closing text = none ↔
      ¬ closing <:+: text ∨
        ∃ before after, Text.FirstAt closing text before after ∧ ¬ opening <:+: before := by
  rw [between?_eq ne, ← Text.cut?_eq_none]
  simp only [← Text.cut?_eq_some_iff, ← Text.cut?_eq_none]
  cases Text.cut? closing text with
  | none => simp
  | some p =>
    obtain ⟨before, after⟩ := p
    simp only [Option.bind_some, Option.map_eq_none_iff, reduceCtorEq, false_or,
      Option.some.injEq, Prod.mk.injEq]
    constructor
    · exact fun lacks => ⟨before, after, ⟨rfl, rfl⟩, lacks⟩
    · rintro ⟨_, _, ⟨rfl, rfl⟩, lacks⟩
      exact lacks

/-- Whatever the markers are, a block is what follows the first opening marker in the text before
the first closing one, without blanks around it; there is none where the text lacks the one marker
or that part of it the other; and the bytes of the block are cut out between characters. -/
theorem between_exact (ne : opening ≠ []) (closing text : List Char) :
    (∀ body, between? opening closing text = some body ↔
      ∃ before after lead inner, Text.FirstAt closing text before after ∧
        Text.FirstAt opening before lead inner ∧ body = Text.trim inner) ∧
      (between? opening closing text = none ↔
        ¬ closing <:+: text ∨
          ∃ before after, Text.FirstAt closing text before after ∧ ¬ opening <:+: before) ∧
      ∃ inner : Option (List Char),
        extract (Text.bytes opening) (Text.bytes closing) (Text.bytes text) =
            .ok (inner.map Text.bytes) ∧
          between? opening closing text = inner.map Text.trim :=
  ⟨fun _ => between?_eq_some_iff ne, between?_eq_none_iff ne, inner? opening closing text,
    extract_bytes ne closing text, between?_eq_map opening closing text⟩

/-- Of markers of several bytes each, one begins with the other and both overlap themselves. -/
theorem between_exact_arrows :
    between? "→→".toList "→→→".toList "→→ note →→→→".toList = some "note".toList ∧
      between? "→→".toList "→→→".toList "→→→ note →→".toList = none ∧
      (∃ inner : Option (List Char),
        extract (Text.bytes "→→".toList) (Text.bytes "→→→".toList)
            (Text.bytes "→→ note →→→→".toList) = .ok (inner.map Text.bytes)) := by
  have ne : "→→".toList ≠ [] := by decide
  obtain ⟨found, -, inner, cut, -⟩ := between_exact ne "→→→".toList "→→ note →→→→".toList
  obtain ⟨-, absent, -⟩ := between_exact ne "→→→".toList "→→→ note →→".toList
  refine ⟨(found _).2 ⟨"→→ note ".toList, "→".toList, [], " note ".toList, ?_, ?_, by decide⟩,
    absent.2 (.inr ⟨[], " note →→".toList, ?_, by decide⟩), inner, cut⟩
  all_goals exact Text.cut?_eq_some_iff.1 (by decide)

end Marker

end Foreman

import Foreman.Proofs.Text.Blank
import Foreman.Proofs.Text.Search
import Foreman.Report.Marker

namespace Foreman.Marker

variable {opening closing text : List Char}

theorem openingOffset?_eq_some (ne : opening ≠ []) (stop : Text.offset? closing text = some n)
    (start : Text.offset? opening (text.take n) = some i) :
    openingOffset? opening closing text = some i ∧ i + opening.length ≤ n := by
  obtain ⟨-, found, first⟩ := Text.offset?_eq_some.1 start
  obtain ⟨bound, -, none⟩ := Text.offset?_eq_some.1 stop
  rw [List.drop_take] at found
  have room := found.length_le
  rw [List.length_take] at room
  have pos : 0 < opening.length := List.length_pos_iff.2 ne
  have here : Text.offset? opening text = some i := by
    refine Text.offset?_eq_some.2 ⟨by omega, found.trans (List.take_prefix ..), ?_⟩
    intro k hk begins
    apply first k hk
    rw [List.drop_take]
    exact (List.prefix_take_iff ..).2 ⟨begins, by omega⟩
  refine ⟨?_, by omega⟩
  have head := Text.head?_offsetsFrom ne 0 text
  rw [here, ← Text.offsets] at head
  simp only [Option.map_some, Nat.zero_add] at head
  obtain ⟨rest, list⟩ := List.head?_eq_some_iff.1 head
  have other : closing.isPrefixOf (text.drop i) = false := by
    rw [Bool.eq_false_iff, ne_eq, List.isPrefixOf_iff_prefix]
    exact none i (by omega)
  simp [openingOffset?, list, other]

theorem lt_of_openingOffset? (none : Text.offset? opening (text.take n) = none)
    (start : openingOffset? opening closing text = some i) : n < i + opening.length := by
  obtain ⟨k, hk, found⟩ := Text.prefix_of_mem_offsetsFrom (List.mem_of_find?_eq_some start)
  rw [Nat.zero_add] at hk
  subst hk
  apply Decidable.byContradiction
  intro room
  apply Text.offset?_eq_none.1 none
  have inside : opening <+: (text.take n).drop i := by
    rw [List.drop_take]
    exact (List.prefix_take_iff ..).2 ⟨found, by omega⟩
  exact inside.isInfix.trans (List.drop_suffix i _).isInfix

-- The opening marker is looked for in all of the text: there may be one behind the first closing
-- marker or across its beginning. Such a one opens no block.
theorem between?_eq (ne : opening ≠ []) (closing text : List Char) :
    between? opening closing text =
      (Text.cut? closing text).bind fun p =>
        (Text.cut? opening p.1).map fun q => Text.trim q.2 := by
  cases stop : Text.offset? closing text with
  | none =>
    simp only [between?, Text.cut?, stop, Option.map_none, Option.bind_none]
    cases openingOffset? opening closing text <;> rfl
  | some n =>
    simp only [between?, Text.cut?, stop, Option.map_some, Option.bind_some, Option.bind_eq_bind]
    cases start : Text.offset? opening (text.take n) with
    | some i =>
      obtain ⟨opens, room⟩ := openingOffset?_eq_some ne stop start
      simp [opens, Nat.not_lt.2 room]
    | none =>
      cases opens : openingOffset? opening closing text with
      | none => rfl
      | some i => simp [lt_of_openingOffset? start opens]

/-- All of the text in a block. -/
def body? (m : Marker) (text : List Char) : Option (List Char) :=
  (Text.cut? m.closing.toList text).bind fun p => (Text.cut? m.opening.toList p.1).map Prod.snd

def all : List Marker := [flag, commit, notes]

/-- The six words that mark blocks. -/
def words : List (List Char) :=
  all.map (·.opening.toList) ++ all.map (·.closing.toList)

/-- The characters that the words consist of. -/
def isLetter (c : Char) : Bool := Text.isUpperAscii c || c == '_'

theorem toNat_of_isLetter (h : isLetter c = true) : 65 ≤ c.toNat ∧ c.toNat ≤ 95 := by
  simp only [isLetter, Text.isUpperAscii, Bool.or_eq_true, Bool.and_eq_true, decide_eq_true_eq,
    beq_iff_eq] at h
  rcases h with ⟨first, last⟩ | rfl
  · exact ⟨UInt32.le_iff_toNat_le.1 first, Nat.le_trans (UInt32.le_iff_toNat_le.1 last) (by decide)⟩
  · decide

theorem isBlank_of_isLetter (h : isLetter c = true) : Text.isBlank c = false := by
  have bounds := toNat_of_isLetter h
  simp [Text.isBlank]
  omega

theorem opening_mem_words (hm : m ∈ all) : m.opening.toList ∈ words :=
  List.mem_append_left _ (List.mem_map_of_mem hm)

theorem closing_mem_words (hm : m ∈ all) : m.closing.toList ∈ words :=
  List.mem_append_right _ (List.mem_map_of_mem hm)

theorem word_ne_nil (hw : w ∈ words) : w ≠ [] := by
  have all : ∀ w ∈ words, w ≠ [] := by decide
  exact all w hw

theorem isLetter_of_mem_word (hw : w ∈ words) : ∀ c ∈ w, isLetter c = true := by
  have all : ∀ w ∈ words, w.all isLetter = true := by decide
  exact List.all_eq_true.1 (all w hw)

theorem not_mem_word (hw : w ∈ words) (hc : isLetter c = false) : c ∉ w := by
  intro h
  rw [isLetter_of_mem_word hw c h] at hc
  cases hc

/-- Neither word of the marker occurs in the text. -/
structure Absent (m : Marker) (s : List Char) : Prop where
  opening : ¬ m.opening.toList <:+: s
  closing : ¬ m.closing.toList <:+: s

/-- A text in which no marker occurs. -/
def Quiet (s : List Char) : Prop := ∀ w ∈ words, ¬ w <:+: s

theorem quiet_iff {s : List Char} : Quiet s ↔ ∀ w ∈ words, Text.occursIn w s = false := by
  simp only [Quiet, ← Text.occursIn_iff, Bool.not_eq_true]

instance (s : List Char) : Decidable (Quiet s) := decidable_of_iff' _ quiet_iff

section

variable {m : Marker} {c : Char} {a b s : List Char}

theorem Quiet.absent (h : Quiet s) (hm : m ∈ all) : m.Absent s :=
  ⟨h _ (opening_mem_words hm), h _ (closing_mem_words hm)⟩

theorem Absent.append_cons (hm : m ∈ all) (hc : isLetter c = false) (ha : m.Absent a)
    (hb : m.Absent b) : m.Absent (a ++ c :: b) where
  opening := not_infix_append_cons (not_mem_word (opening_mem_words hm) hc) ha.opening hb.opening
  closing := not_infix_append_cons (not_mem_word (closing_mem_words hm) hc) ha.closing hb.closing

theorem block?_eq (hm : m ∈ all) (text : List Char) :
    m.block? text = (m.body? text).map Text.trim := by
  rw [block?, between?_eq (word_ne_nil (opening_mem_words hm)), body?]
  cases Text.cut? m.closing.toList text with
  | none => rfl
  | some p => simp [Function.comp_def]

theorem body?_eq_none (absent : m.Absent s) : m.body? s = none := by
  rw [body?, Text.cut?_eq_none.2 absent.closing]
  rfl

/-- A text before the block makes no difference if the marker does not occur in it. -/
theorem body?_append_cons (hm : m ∈ all) (hc : isLetter c = false) (absent : m.Absent a)
    (s : List Char) : m.body? (a ++ c :: s) = m.body? s := by
  have opening := not_mem_word (opening_mem_words hm) hc
  have closing := not_mem_word (closing_mem_words hm) hc
  rw [body?, Text.cut?_append_cons closing absent.closing, body?]
  cases Text.cut? m.closing.toList s with
  | none => rfl
  | some p => simp [Text.cut?_append_cons opening absent.opening, Function.comp_def]

theorem body?_append_cons_right (hm : m ∈ all) (hc : isLetter c = false) (absent : m.Absent b)
    (s : List Char) : m.body? (s ++ c :: b) = m.body? s := by
  have closing := not_mem_word (closing_mem_words hm) hc
  rw [body?, Text.cut?_append_cons_right closing absent.closing, body?]
  cases Text.cut? m.closing.toList s <;> rfl

/-- Nothing that follows a block makes a difference to it. -/
theorem body?_append_of_eq_some (hm : m ∈ all) (h : m.body? s = some body) (x : List Char) :
    m.body? (s ++ x) = some body := by
  obtain ⟨p, hp, hb⟩ := Option.bind_eq_some_iff.1 h
  rw [body?, Text.cut?_append_of_eq_some (word_ne_nil (closing_mem_words hm)) hp]
  exact hb

theorem body?_flatMap {f : Char → List Char} (hm : m ∈ all)
    (kept : ∀ w ∈ words, Text.Kept f w) (s : List Char) :
    m.body? (s.flatMap f) = (m.body? s).map (·.flatMap f) := by
  have opening := opening_mem_words hm
  have closing := closing_mem_words hm
  rw [body?, (kept _ closing).cut?_flatMap (word_ne_nil closing), body?]
  cases Text.cut? m.closing.toList s with
  | none => rfl
  | some p =>
    simp [(kept _ opening).cut?_flatMap (word_ne_nil opening), Function.comp_def]

/-- A block with its markers on lines of their own. -/
theorem body?_block (hm : m ∈ all) (hs : m.Absent s) :
    m.body? (m.opening.toList ++ '\n' :: (s ++ '\n' :: m.closing.toList)) =
      some ('\n' :: (s ++ ['\n'])) := by
  have opening := opening_mem_words hm
  have closing := closing_mem_words hm
  have unlike : ¬ m.closing.toList <:+: m.opening.toList := by
    have all : ∀ m ∈ all, Text.occursIn m.closing.toList m.opening.toList = false := by decide
    rw [← Text.occursIn_iff, all m hm]
    exact Bool.false_ne_true
  have ends : Text.cut? m.closing.toList m.closing.toList = some ([], []) := by
    simpa using Text.cut?_self_append (word_ne_nil closing) []
  rw [body?, Text.cut?_append_cons (not_mem_word closing rfl) unlike,
    Text.cut?_append_cons (not_mem_word closing rfl) hs.closing, ends]
  simp [Text.cut?_self_append (word_ne_nil opening)]

end

end Foreman.Marker

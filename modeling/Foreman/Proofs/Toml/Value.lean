import Foreman.Proofs.Text.Digits
import Foreman.Proofs.Toml.Quoted
import Foreman.Toml.Printer

namespace Foreman.Toml

open Quoted (Closed)

/-- A character that something begins with, so that no gap goes on with it. -/
structure Solid (c : Char) : Prop where
  margin : isMargin c = false
  feed : c ≠ '\n'
  back : c ≠ '\r'
  comment : c ≠ '#'
  mark : c ≠ '\ufeff'

theorem Solid.skipMargin (h : Solid c) (r : List Char) : skipMargin (c :: r) = c :: r := by
  rw [Toml.skipMargin, List.dropWhile_cons_of_neg (by simp [h.margin])]

theorem Solid.skipGap (h : Solid c) (r : List Char) : skipGap false (c :: r) = some (c :: r) := by
  rw [Toml.skipGap, h.margin]
  · rfl
  · exact h.feed
  · exact fun _ same => (h.back same).elim
  · exact h.comment

theorem solid_quote (h : c = '"' ∨ c = '\'') : Solid c := by
  rcases h with rfl | rfl
  · exact ⟨rfl, by decide, by decide, by decide, by decide⟩
  · exact ⟨rfl, by decide, by decide, by decide, by decide⟩

theorem solid_of_isKeyChar (h : isKeyChar c = true) : Solid c := by
  refine ⟨?_, ?_, ?_, ?_, ?_⟩
  · rw [Bool.eq_false_iff]
    intro margin
    rcases Bool.or_eq_true_iff.1 margin with same | same <;>
    · rw [eq_of_beq same] at h
      cases h
  all_goals
    rintro rfl
    cases h

/-- A row of characters ends where one follows that does not belong to it. -/
theorem takeWhile_row {p : Char → Bool} {s r : List Char} (row : ∀ c ∈ s, p c = true)
    (stop : ∀ c ∈ r.head?, p c = false) : (s ++ r).takeWhile p = s ∧ (s ++ r).dropWhile p = r := by
  rw [List.takeWhile_append_of_pos row, List.dropWhile_append_of_pos row]
  cases r with
  | nil => simp
  | cons c r => simp [stop c rfl]

theorem digits?_of_all (ne : ds ≠ []) (digits : ∀ c ∈ ds, Text.isDigit c = true) :
    digits? Text.isDigit ds = some ds := by
  induction ds with
  | nil => exact (ne rfl).elim
  | cons c ds ih =>
    have first := digits c List.mem_cons_self
    cases ds with
    | nil => simp [digits?, first]
    | cons d ds =>
      have second := digits d (List.mem_cons_of_mem _ List.mem_cons_self)
      have later := ih nofun fun e he => digits e (List.mem_cons_of_mem _ he)
      rw [digits?, if_pos first, later]
      · rfl
      · nofun
      · rintro r same
        cases same
        cases second

theorem wholeDigits?_ofNat (n : Nat) : wholeDigits? (Text.ofNat n) = some (Text.ofNat n) := by
  have digits := digits?_of_all (Text.ofNat_ne_nil n) fun _ => Text.isDigit_of_mem_ofNat
  have leading := fun r => Text.leading_ofNat (r := r) n
  rw [wholeDigits?, digits]
  split
  · rename_i same
    cases leading _ (Option.some.inj same)
  · rfl

theorem isInteger_of_lt (small : n < UInt64.size) : isInteger n = true := by
  have high : twoTo 64 ≤ twoTo 128 := by decide
  have low : 0 ≤ twoTo 127 := Nat.zero_le _
  have size : UInt64.size = twoTo 64 := by decide
  simp only [isInteger, Bool.and_eq_true, decide_eq_true_eq]
  omega

theorem integer?_ofNat (small : n < UInt64.size) : integer? (Text.ofNat n) = some (.integer n) := by
  have digits : ∀ c ∈ Text.ofNat n, Text.isDigit c = true := fun _ => Text.isDigit_of_mem_ofNat
  have read : (wholeDigits? (Text.ofNat n)).bind (fun ds => ofInteger? (Text.digitsValue ds)) =
      some (.integer n) := by
    rw [wholeDigits?_ofNat, Option.bind_some, Text.digitsValue_ofNat, ofInteger?,
      if_pos (isInteger_of_lt small)]
  generalize Text.ofNat n = s at digits read
  unfold integer?
  split
  · cases digits 'x' (by simp)
  · cases digits 'o' (by simp)
  · cases digits 'b' (by simp)
  · cases digits '-' (by simp)
  · cases digits '+' (by simp)
  · exact read

theorem ofScalar?_ofNat (small : n < UInt64.size) :
    ofScalar? (Text.ofNat n) = some (.integer n) := by
  have digits : ∀ c ∈ Text.ofNat n, Text.isDigit c = true := fun _ => Text.isDigit_of_mem_ofNat
  have noTruth : Text.ofNat n ≠ "true".toList := by
    intro same
    rw [same] at digits
    cases digits 't' (by decide)
  have noFalsehood : Text.ofNat n ≠ "false".toList := by
    intro same
    rw [same] at digits
    cases digits 'f' (by decide)
  rw [ofScalar?, if_neg noTruth, if_neg noFalsehood, integer?_ofNat small]

theorem char?_of_all (digits : ∀ c ∈ s, Text.isDigit c = true) : char? '-' s = none := by
  cases s with
  | nil => rfl
  | cons c s =>
    have dash : c ≠ '-' := by
      rintro rfl
      cases digits '-' List.mem_cons_self
    rw [char?, if_neg dash]

/-- A row of digits is no date, however long it is. -/
theorem afterDate?_of_all (digits : ∀ c ∈ s, Text.isDigit c = true) : afterDate? s = none := by
  have dash := char?_of_all fun c hc => digits c (List.mem_of_mem_drop (i := 4) hc)
  unfold afterDate? fixed?
  dsimp only
  split
  · simp [dash]
  · rfl

theorem isScalarChar_of_isDigit (h : Text.isDigit c = true) : isScalarChar c = true := by
  simp [isScalarChar, Text.isAlphanumericAscii, h]

theorem scalar?_ofNat (small : n < UInt64.size) (stop : ∀ c ∈ r.head?, isScalarChar c = false) :
    scalar? (Text.ofNat n ++ r) = some (.integer n, r) := by
  have digits : ∀ c ∈ Text.ofNat n, Text.isDigit c = true := fun _ => Text.isDigit_of_mem_ofNat
  obtain ⟨front, back⟩ := takeWhile_row (fun c hc => isScalarChar_of_isDigit (digits c hc)) stop
  have alone : timeFollows (Text.ofNat n) r = false := by
    simp [timeFollows, afterDate?_of_all digits]
  simp only [scalar?, front, back, alone, ofScalar?_ofNat small]
  rfl

def Written.toToml : Written → Toml
  | number n => .integer n
  | text s => .string s
  | texts ss => .array (ss.map .string)

/-- A number that fits into 64 bits, or a value that is no number. -/
def Written.Fits : Written → Prop
  | number n => n < UInt64.size
  | _ => True

theorem value_writeText (closed : Closed r) (depth : Nat) (s : String) :
    value depth (writeText s ++ r) = some (.string s, r) := by
  have read := Quoted.read?_write closed s.toList
  obtain ⟨q, tail, same, quote⟩ := Quoted.exists_write s.toList
  have quoted : value depth (writeText s ++ r) =
      (Quoted.read? (writeText s ++ r)).map fun x => (.string (String.ofList x.1), x.2) := by
    rw [writeText, same]
    cases depth <;> rcases quote with rfl | rfl <;> rfl
  rw [quoted, writeText, read]
  simp

theorem value_digit (digit : Text.isDigit c = true) (depth : Nat) (r : List Char) :
    value depth (c :: r) = scalar? (c :: r) := by
  cases depth <;> rw [value]
  all_goals
    intro tail same
    cases same
    cases digit

theorem value_ofNat (small : n < UInt64.size) (stop : ∀ c ∈ r.head?, isScalarChar c = false)
    (depth : Nat) : value depth (Text.ofNat n ++ r) = some (.integer n, r) := by
  have read := scalar?_ofNat small stop
  have digits : ∀ c ∈ Text.ofNat n, Text.isDigit c = true := fun _ => Text.isDigit_of_mem_ofNat
  obtain ⟨c, ds, same⟩ := List.exists_cons_of_ne_nil (Text.ofNat_ne_nil n)
  rw [same] at digits read ⊢
  exact (value_digit (digits c List.mem_cons_self) depth (ds ++ r)).trans read

theorem exists_writeText (s : String) : ∃ q r, writeText s = q :: r ∧ (q = '"' ∨ q = '\'') :=
  Quoted.exists_write s.toList

theorem skipGap_writeText (s : String) (r : List Char) :
    skipGap false (writeText s ++ r) = some (writeText s ++ r) := by
  obtain ⟨q, tail, same, quote⟩ := exists_writeText s
  rw [same]
  exact (solid_quote quote).skipGap (tail ++ r)

theorem solid_closing : Solid ']' := ⟨rfl, by decide, by decide, by decide, by decide⟩

theorem solid_comma : Solid ',' := ⟨rfl, by decide, by decide, by decide, by decide⟩

theorem closed_cons (double : c ≠ '"') (single : c ≠ '\'') (r : List Char) : Closed (c :: r) :=
  ⟨by simpa using double, by simpa using single⟩

variable {depth fuel : Nat} {s : String} {r : List Char}

theorem elements_close (start : skipGap false s' = some (']' :: r)) :
    elements ']' (value depth) (fuel + 1) s' = some ([], r) := by
  rw [elements, start]
  rfl

theorem elements_text (start : skipGap false s' = some (writeText s ++ c :: r)) (solid : Solid c)
    (double : c ≠ '"') (single : c ≠ '\'') (depth fuel : Nat) :
    elements ']' (value depth) (fuel + 1) s' =
      if c = ']' then some ([.string s], r)
      else if c = ',' then
        (elements ']' (value depth) fuel r).map fun (rest, r) => (.string s :: rest, r)
      else none := by
  have read := value_writeText (closed_cons double single r) depth s
  obtain ⟨q, tail, same, quote⟩ := exists_writeText s
  have other : q ≠ ']' := by rcases quote with rfl | rfl <;> decide
  rw [same] at start read
  simp only [elements, start, List.cons_append, bind, Option.bind, if_neg other]
  rw [← List.cons_append, read]
  simp only [solid.skipGap]
  split
  · rfl
  · split
    · cases elements ']' (value depth) fuel r <;> rfl
    · rfl

theorem skipGap_indent (r : List Char) :
    skipGap false ('\n' :: ("    ".toList ++ r)) = skipGap false r := by
  rfl

/-- Texts on lines of their own, each with a comma behind it. -/
theorem elements_items (ss : List String) (enough : ss.length < fuel) (depth : Nat)
    (r : List Char) :
    elements ']' (value depth) fuel ('\n' :: (ss.flatMap writeItem ++ ']' :: r)) =
      some (ss.map .string, r) := by
  obtain ⟨fuel, rfl⟩ := Nat.exists_eq_succ_of_ne_zero (Nat.ne_zero_of_lt enough)
  induction ss generalizing fuel with
  | nil => exact elements_close (solid_closing.skipGap r)
  | cons s ss ih =>
    have start : skipGap false ('\n' :: ((s :: ss).flatMap writeItem ++ ']' :: r)) =
        some (writeText s ++ ',' :: '\n' :: (ss.flatMap writeItem ++ ']' :: r)) := by
      rw [List.flatMap_cons, writeItem]
      simp only [List.append_assoc]
      rw [skipGap_indent, skipGap_writeText]
      rfl
    obtain ⟨fuel, rfl⟩ := Nat.exists_eq_succ_of_ne_zero
      (Nat.ne_zero_of_lt (Nat.lt_of_succ_lt_succ enough))
    rw [elements_text start solid_comma (by decide) (by decide), if_neg (by decide), if_pos rfl,
      ih fuel (Nat.lt_of_succ_lt_succ enough)]
    rfl

theorem length_le_items (ss : List String) : ss.length ≤ (ss.flatMap writeItem).length := by
  induction ss with
  | nil => exact Nat.le_refl 0
  | cons s ss ih =>
    simp only [List.flatMap_cons, writeItem, List.length_append, List.length_cons] at ih ⊢
    omega

theorem value_texts (ss : List String) (depth : Nat) (r : List Char) :
    value (depth + 1) ((Written.texts ss).write ++ r) = some (.array (ss.map .string), r) := by
  match ss with
  | [] =>
    change array? (value depth) (']' :: r) = _
    rw [array?, elements_close (solid_closing.skipGap r)]
    rfl
  | [s] =>
    have start := skipGap_writeText s (']' :: r)
    change array? (value depth) (writeText s ++ [']'] ++ r) = _
    rw [List.append_assoc, List.singleton_append, array?,
      elements_text start solid_closing (by decide) (by decide),
      if_pos rfl]
    rfl
  | s :: s' :: ss =>
    change array? (value depth) ('\n' :: ((s :: s' :: ss).flatMap writeItem ++ [']']) ++ r) = _
    rw [List.cons_append, List.append_assoc, List.singleton_append, array?, elements_items]
    · rfl
    · have items := length_le_items (s :: s' :: ss)
      simp only [List.length_cons, List.length_append] at items ⊢
      omega

/-- A value is read back up to the end of its line. -/
theorem value_write {v : Written} (fits : v.Fits) (depth : Nat) (r : List Char) :
    value (depth + 1) (v.write ++ '\n' :: r) = some (v.toToml, '\n' :: r) := by
  have stop : ∀ c ∈ ('\n' :: r).head?, isScalarChar c = false := by
    rintro c ⟨⟩
    rfl
  cases v with
  | number n => exact value_ofNat fits stop (depth + 1)
  | text s => exact value_writeText (closed_cons (by decide) (by decide) r) (depth + 1) s
  | texts ss => exact value_texts ss depth ('\n' :: r)

end Foreman.Toml

import Foreman.Toml.Quoted

namespace Foreman.Toml.Quoted

theorem consChar_some (c : Char) (tail : Option (List Char × List Char)) :
    consChar (some c) tail = tail.map fun (cs, rest) => (c :: cs, rest) := by
  rcases tail with _ | ⟨cs, rest⟩ <;> rfl

theorem basicTail_cons (plain : isControl c = false) (quote : c ≠ '"') (slash : c ≠ '\\')
    (inText : p ≠ .margin) (r : List Char) :
    basicTail p (c :: r) = consChar (some c) (basicTail p.next r) := by
  have feed : c ≠ '\n' ∧ c ≠ '\r' := by
    constructor <;>
    · rintro rfl
      cases plain
  obtain ⟨_, _⟩ := feed
  rw [basicTail, if_neg (by simp [plain]), if_neg (by simp [inText])]
  all_goals
    intros
    contradiction

theorem basicTail_escaped (known : escaped? e = some c) (p : Place) (r : List Char) :
    basicTail p ('\\' :: e :: r) = consChar (some c) (basicTail p.next r) := by
  have there : ¬ continues p (e :: r) = true := by
    have margin : isMargin e = false := by
      rw [Bool.eq_false_iff]
      intro margin
      rcases Bool.or_eq_true_iff.1 margin with same | same <;>
      · rw [eq_of_beq same] at known
        cases known
    rw [continues, skipMargin, List.dropWhile_cons_of_neg (by simp [margin])]
    unfold atLineEnd
    split
    · rename_i same
      cases same
      cases known
    · rename_i same
      cases same
      cases known
    · simp
  rw [basicTail, if_neg there, known]
  all_goals
    intros
    subst e
    cases known

theorem hexQuad_of_lt :
    ∀ n < 128, (hexQuad n).length = 4 ∧ coded? (hexQuad n) = some (Char.ofNat n) := by
  decide +kernel

theorem basicTail_hexQuad (low : c.toNat < 128) (p : Place) (r : List Char) :
    basicTail p ('\\' :: 'u' :: (hexQuad c.toNat ++ r)) =
      consChar (some c) (basicTail p.next r) := by
  obtain ⟨length, coded⟩ := hexQuad_of_lt c.toNat low
  generalize hexQuad c.toNat = ds at length coded
  match ds, length with
  | [h, i, j, k], _ =>
    change consChar (coded? [h, i, j, k]) (basicTail p.next r) = _
    rw [coded, Char.ofNat_toNat]

def place (block : Bool) : Place := if block then .block else .line

theorem next_place (block : Bool) : (place block).next = place block := by
  cases block <;> rfl

theorem basicTail_letter (known : escaped? e = some c) (block : Bool) (r : List Char) :
    basicTail (place block) (['\\', e] ++ r) = consChar (some c) (basicTail (place block) r) := by
  rw [List.cons_append, List.singleton_append, basicTail_escaped known, next_place]

theorem basicTail_escape (quote : c ≠ '"') (block : Bool) (r : List Char) :
    basicTail (place block) (escape block c ++ r) =
      consChar (some c) (basicTail (place block) r) := by
  unfold escape
  split
  · rename_i same
    exact same ▸ basicTail_letter rfl block r
  split
  · rename_i same
    exact same ▸ basicTail_letter rfl block r
  split
  · rename_i same
    subst same
    cases block with
    | false => exact basicTail_letter rfl false r
    | true => rfl
  split
  · rename_i same
    exact same ▸ basicTail_letter rfl block r
  split
  · rename_i same
    exact same ▸ basicTail_letter rfl block r
  split
  · rename_i same
    subst same
    exact basicTail_letter rfl block r
  rename_i slash
  split
  · rename_i control
    have low : c.toNat < 128 := by
      simp only [isControl, Bool.or_eq_true, Bool.and_eq_true, decide_eq_true_eq,
        beq_iff_eq] at control
      omega
    rw [List.cons_append, List.cons_append, basicTail_hexQuad low, next_place]
  · rename_i plain
    have inText : place block ≠ .margin := by cases block <;> decide
    rw [List.singleton_append, basicTail_cons (Bool.eq_false_iff.2 plain) quote slash inText,
      next_place]

/-- A character that is not escaped stands for itself, and is none of those that end a line, but
for a line feed in a text of several lines. -/
theorem escape_cases (block : Bool) (c : Char) :
    escape block c = [c] ∧ c ≠ '\r' ∨ ∃ r, escape block c = '\\' :: r := by
  by_cases feed : c = '\r'
  · subst feed
    exact .inr ⟨['r'], by cases block <;> rfl⟩
  · unfold escape
    repeat' split
    all_goals simp_all

theorem escapeFrom_cons_of_ne (quote : c ≠ '"') (block : Bool) (run : Nat) (s : List Char) :
    escapeFrom block run (c :: s) = escape block c ++ escapeFrom block 0 s := by
  rw [escapeFrom, if_neg quote]

/-- A text of one line is read up to the quote behind it. -/
theorem basicTail_line (s r : List Char) :
    basicTail .line (escapeFrom false 0 s ++ '"' :: r) = some (s, r) := by
  induction s with
  | nil => rfl
  | cons c s ih =>
    by_cases quote : c = '"'
    · subst quote
      change basicTail .line ('\\' :: '"' :: (escapeFrom false 0 s ++ '"' :: r)) = _
      rw [basicTail_escaped rfl]
      change consChar _ (basicTail .line _) = _
      rw [ih]
      rfl
    · rw [escapeFrom_cons_of_ne quote, List.append_assoc]
      have step := basicTail_escape quote false (escapeFrom false 0 s ++ '"' :: r)
      change basicTail .line _ = consChar (some c) (basicTail .line _) at step
      rw [step, ih]
      rfl

/-- Behind `run` quotes and others not so many follow as to make two rows of two. -/
theorem replicate_append_ne (short : run < blockLimit) (other : s.head? ≠ some q) (r : List Char) :
    List.replicate run q ++ s ≠ q :: q :: r := by
  intro same
  apply other
  match run, short with
  | 0, _ =>
    rw [List.replicate_zero, List.nil_append] at same
    rw [same]
    rfl
  | 1, _ =>
    injection same with _ same
    change s = q :: r at same
    rw [same]
    rfl

theorem basicTail_quote (lone : ∀ r, s ≠ '"' :: '"' :: r) :
    basicTail .block ('"' :: s) = consChar (some '"') (basicTail .block s) := by
  rw [basicTail]
  · nofun
  · intro r same
    exact lone _ same
  · intro r same
    exact lone _ same
  · exact lone

/-- A row of quotes that is too short to end a text is part of it. -/
theorem basicTail_row (short : run ≤ blockLimit) (other : s.head? ≠ some '"') :
    basicTail .block (List.replicate run '"' ++ s) =
      (basicTail .block s).map fun (cs, rest) => (List.replicate run '"' ++ cs, rest) := by
  induction run with
  | zero => simp
  | succ run ih =>
    rw [List.replicate_succ, List.cons_append, basicTail_quote (replicate_append_ne short other),
      ih (Nat.le_of_succ_le short), consChar_some, Option.map_map]
    rfl

theorem basicTail_fence (short : run ≤ blockLimit) (other : r.head? ≠ some '"') :
    basicTail .block (List.replicate run '"' ++ (fence '"' ++ r)) =
      some (List.replicate run '"', r) := by
  have other : ∀ r', r ≠ '"' :: r' := by
    rintro r' rfl
    exact other rfl
  match run, short with
  | 0, _ => simp [fence, basicTail, other]
  | 1, _ => simp [fence, basicTail]
  | 2, _ => rfl

/-- A text of several lines, of which a row of quotes is read already, is read up to the three
quotes behind it. -/
theorem basicTail_block (short : run ≤ blockLimit) (other : r.head? ≠ some '"') (s : List Char) :
    basicTail .block (List.replicate run '"' ++ (escapeFrom true run s ++ (fence '"' ++ r))) =
      some (List.replicate run '"' ++ s, r) := by
  induction s generalizing run with
  | nil => simpa [escapeFrom] using basicTail_fence short other
  | cons c s ih =>
    have later : basicTail .block (escapeFrom true 0 s ++ (fence '"' ++ r)) = some (s, r) :=
      ih (Nat.zero_le blockLimit)
    by_cases quote : c = '"'
    · subst quote
      -- The row of quotes that is read already grows, until the next quote is escaped.
      by_cases more : run < blockLimit
      · have next := ih (Nat.succ_le_of_lt more)
        rw [List.replicate_succ', List.append_assoc, List.append_assoc] at next
        simpa [escapeFrom, more] using next
      · have step : escapeFrom true run ('"' :: s) = '\\' :: '"' :: escapeFrom true 0 s := by
          simp [escapeFrom, more]
        rw [step, basicTail_row short (by simp), List.cons_append, List.cons_append,
          basicTail_escaped rfl]
        change (consChar _ (basicTail .block _)).map _ = _
        rw [later]
        rfl
    · have first :
          (escape true c ++ (escapeFrom true 0 s ++ (fence '"' ++ r))).head? ≠ some '"' := by
        rcases escape_cases true c with ⟨same, -⟩ | ⟨tail, same⟩ <;> simp [same, quote]
      rw [escapeFrom_cons_of_ne quote, List.append_assoc, basicTail_row short first]
      have step := basicTail_escape quote true (escapeFrom true 0 s ++ (fence '"' ++ r))
      change basicTail .block _ = consChar (some c) (basicTail .block _) at step
      rw [step, later]
      rfl

theorem literalTail_append (plain : ∀ c ∈ s, isControl c = false) (single : '\'' ∉ s)
    (r : List Char) :
    literalTail (s ++ '\'' :: r) = some (s, r) := by
  induction s with
  | nil => rfl
  | cons c s ih =>
    have quote : c ≠ '\'' := fun same => single (same ▸ List.mem_cons_self)
    have later := ih (fun d hd => plain d (List.mem_cons_of_mem _ hd))
      fun member => single (List.mem_cons_of_mem _ member)
    rw [List.cons_append, literalTail, plain c List.mem_cons_self, later]
    · rfl
    · exact quote

theorem literalBlockTail_quote (lone : ∀ r, s ≠ '\'' :: '\'' :: r) :
    literalBlockTail ('\'' :: s) = consChar (some '\'') (literalBlockTail s) := by
  rw [literalBlockTail]
  · rfl
  · exact fun _ _ same => lone _ same
  · exact fun _ _ same => lone _ same
  · exact fun r _ => lone r
  · nofun

theorem literalBlockTail_cons (plain : isControl c = false ∨ c = '\n') (quote : c ≠ '\'')
    (r : List Char) :
    literalBlockTail (c :: r) = consChar (some c) (literalBlockTail r) := by
  have stands : ¬ (isControl c && c != '\n') = true := by
    rcases plain with plain | plain <;> simp [plain]
  have back : c ≠ '\r' := by
    rintro rfl
    rcases plain with plain | plain <;> cases plain
  rw [literalBlockTail, if_neg stands]
  all_goals
    intros
    contradiction

theorem literalBlockTail_row (short : run ≤ blockLimit) (other : s.head? ≠ some '\'') :
    literalBlockTail (List.replicate run '\'' ++ s) =
      (literalBlockTail s).map fun (cs, rest) => (List.replicate run '\'' ++ cs, rest) := by
  induction run with
  | zero => simp
  | succ run ih =>
    rw [List.replicate_succ, List.cons_append,
      literalBlockTail_quote (replicate_append_ne short other), ih (Nat.le_of_succ_le short),
      consChar_some, Option.map_map]
    rfl

theorem literalBlockTail_fence (short : run ≤ blockLimit) (other : r.head? ≠ some '\'') :
    literalBlockTail (List.replicate run '\'' ++ (fence '\'' ++ r)) =
      some (List.replicate run '\'', r) := by
  have other : ∀ r', r ≠ '\'' :: r' := by
    rintro r' rfl
    exact other rfl
  match run, short with
  | 0, _ => simp [fence, literalBlockTail, other]
  | 1, _ => simp [fence, literalBlockTail]
  | 2, _ => rfl

theorem literalBlockTail_append (plain : ∀ c ∈ s, isControl c = false ∨ c = '\n')
    (short : runFrom '\'' run s ≤ blockLimit) (other : r.head? ≠ some '\'') :
    literalBlockTail (List.replicate run '\'' ++ (s ++ (fence '\'' ++ r))) =
      some (List.replicate run '\'' ++ s, r) := by
  induction s generalizing run with
  | nil => simpa [runFrom] using literalBlockTail_fence short other
  | cons c s ih =>
    have plain' := fun d hd => plain d (List.mem_cons_of_mem _ hd)
    by_cases quote : c = '\''
    · subst quote
      rw [runFrom, if_pos rfl] at short
      have next := ih plain' short
      rw [List.replicate_succ', List.append_assoc, List.append_assoc] at next
      exact next
    · rw [runFrom, if_neg quote] at short
      have later : literalBlockTail (s ++ (fence '\'' ++ r)) = some (s, r) :=
        ih plain' (Nat.le_trans (Nat.le_max_right _ _) short)
      rw [List.cons_append, literalBlockTail_row (Nat.le_trans (Nat.le_max_left _ _) short)
          (by simpa using quote), literalBlockTail_cons (plain c List.mem_cons_self) quote, later]
      rfl

theorem le_runFrom (q : Char) (run : Nat) (s : List Char) : run ≤ runFrom q run s := by
  induction s generalizing run with
  | nil => exact Nat.le_refl run
  | cons c s ih =>
    rw [runFrom]
    split
    · exact Nat.le_of_succ_le (ih (run + 1))
    · exact Nat.le_max_left _ _

theorem not_mem_of_longestRun (h : longestRun q s = 0) : q ∉ s := by
  induction s with
  | nil => exact List.not_mem_nil
  | cons c s ih =>
    rw [longestRun, runFrom] at h
    split at h
    · have row := le_runFrom q (0 + 1) s
      rw [h] at row
      cases row
    · rename_i other
      intro member
      rcases List.mem_cons.1 member with same | later
      · exact other same.symm
      · exact ih (Nat.le_zero.1 (h ▸ Nat.le_max_right 0 _)) later

/-- What stands behind a text, and does not go on with a quote. -/
structure Closed (r : List Char) : Prop where
  double : r.head? ≠ some '"'
  single : r.head? ≠ some '\''

theorem read?_basic (closed : Closed r) (s : List Char) :
    read? (Style.basic.write s ++ r) = some (s, r) := by
  have lone : ∀ r', escapeFrom false 0 s ++ '"' :: r ≠ '"' :: '"' :: r' := by
    intro r' same
    cases s with
    | nil =>
      injection same with _ same
      rw [same] at closed
      exact closed.double rfl
    | cons c s =>
      by_cases quote : c = '"'
      · subst quote
        cases same
      · rw [escapeFrom_cons_of_ne quote] at same
        rcases escape_cases false c with ⟨plain, -⟩ | ⟨tail, plain⟩
        · rw [plain] at same
          injection same with same
          exact quote same
        · rw [plain] at same
          cases same
  have tail := basicTail_line s r
  rw [Style.write, List.append_assoc, List.cons_append, List.singleton_append]
  rw [read?]
  · exact tail
  · exact lone

theorem read?_literal (closed : Closed r) (plain : ∀ c ∈ s, isControl c = false)
    (single : '\'' ∉ s) :
    read? (Style.literal.write s ++ r) = some (s, r) := by
  have lone : ∀ r', s ++ '\'' :: r ≠ '\'' :: '\'' :: r' := by
    intro r' same
    cases s with
    | nil =>
      injection same with _ same
      rw [same] at closed
      exact closed.single rfl
    | cons c s =>
      injection same with same
      exact single (same ▸ List.mem_cons_self)
  rw [Style.write, List.append_assoc, List.cons_append, List.singleton_append]
  rw [read?]
  · exact literalTail_append plain single r
  · exact lone

theorem dropOpening_opening (feed : '\n' ∉ s → t.head? ≠ some '\n') (back : t.head? ≠ some '\r') :
    dropOpening (opening s ++ t) = t := by
  unfold opening
  split
  · rfl
  · rename_i oneLine
    have feed := feed (by simpa using oneLine)
    rw [List.nil_append]
    unfold dropOpening
    split
    · exact (feed rfl).elim
    · exact (back rfl).elim
    · rfl

theorem read?_basicBlock (closed : Closed r) (s : List Char) :
    read? (Style.basicBlock.write s ++ r) = some (s, r) := by
  have tail : basicTail .block (escapeFrom true 0 s ++ (fence '"' ++ r)) = some (s, r) :=
    basicTail_block (Nat.zero_le blockLimit) closed.double s
  have head : ('\n' ∉ s → (escapeFrom true 0 s ++ (fence '"' ++ r)).head? ≠ some '\n') ∧
      (escapeFrom true 0 s ++ (fence '"' ++ r)).head? ≠ some '\r' := by
    cases s with
    | nil => exact ⟨by simp [escapeFrom, fence], by simp [escapeFrom, fence]⟩
    | cons c s =>
      by_cases quote : c = '"'
      · subst quote
        exact ⟨by simp [escapeFrom, blockLimit], by simp [escapeFrom, blockLimit]⟩
      · rw [escapeFrom_cons_of_ne quote]
        rcases escape_cases true c with ⟨plain, back⟩ | ⟨tail, plain⟩
        · rw [plain]
          refine ⟨?_, by simpa using back⟩
          intro absent same
          exact absent (Option.some.inj same ▸ List.mem_cons_self)
        · simp [plain]
  rw [Style.write]
  simp only [List.append_assoc]
  change basicTail .block (dropOpening (opening s ++ (escapeFrom true 0 s ++ (fence '"' ++ r)))) = _
  rw [dropOpening_opening head.1 head.2, tail]

theorem read?_literalBlock (closed : Closed r) (plain : ∀ c ∈ s, isControl c = false ∨ c = '\n')
    (short : longestRun '\'' s ≤ blockLimit) :
    read? (Style.literalBlock.write s ++ r) = some (s, r) := by
  have tail : literalBlockTail (s ++ (fence '\'' ++ r)) = some (s, r) :=
    literalBlockTail_append plain short closed.single
  have head : ('\n' ∉ s → (s ++ (fence '\'' ++ r)).head? ≠ some '\n') ∧
      (s ++ (fence '\'' ++ r)).head? ≠ some '\r' := by
    cases s with
    | nil => exact ⟨by simp [fence], by simp [fence]⟩
    | cons c s =>
      constructor
      · intro absent same
        exact absent (Option.some.inj same ▸ List.mem_cons_self)
      · intro same
        have back := plain c List.mem_cons_self
        rw [Option.some.inj same] at back
        rcases back with back | back <;> cases back
  rw [Style.write]
  simp only [List.append_assoc]
  change literalBlockTail (dropOpening (opening s ++ (s ++ (fence '\'' ++ r)))) = _
  rw [dropOpening_opening head.1 head.2, tail]

/-- Which styles are chosen for which texts, as far as the reader cares. -/
theorem style_of_cases (s : List Char) :
    Style.of s = .basic ∨ Style.of s = .basicBlock ∨
      (Style.of s = .literal ∧ (∀ c ∈ s, isControl c = false) ∧ '\'' ∉ s) ∨
      (Style.of s = .literalBlock ∧ (∀ c ∈ s, isControl c = false ∨ c = '\n') ∧
        longestRun '\'' s ≤ blockLimit) := by
  have stands (plain : (!s.any fun c => isControl c && c != '\n') = true) (c : Char)
      (member : c ∈ s) :
      isControl c = false ∨ c = '\n' := by
    rw [Bool.not_eq_true', List.any_eq_false] at plain
    by_cases feed : c = '\n'
    · exact .inr feed
    · exact .inl (by simpa [feed] using plain c member)
  simp only [Style.of]
  split
  · exact .inl rfl
  · split
    · rename_i literal
      simp only [Bool.and_eq_true, decide_eq_true_eq] at literal
      obtain ⟨⟨plain, oneLine⟩, single⟩ := literal
      refine .inr (.inr (.inl ⟨rfl, ?_, not_mem_of_longestRun single⟩))
      intro c member
      rcases stands plain c member with control | rfl
      · exact control
      · simp [member] at oneLine
    · split
      · exact .inr (.inl rfl)
      · split
        · rename_i literal
          simp only [Bool.and_eq_true, decide_eq_true_eq] at literal
          exact .inr (.inr (.inr ⟨rfl, stands literal.1, literal.2⟩))
        · split
          · exact .inl rfl
          · exact .inr (.inl rfl)

/-- A text is read back as it was written, in front of whatever is no quote. -/
theorem read?_write (closed : Closed r) (s : List Char) : read? (write s ++ r) = some (s, r) := by
  unfold write
  rcases style_of_cases s with same | same | ⟨same, plain, single⟩ | ⟨same, plain, short⟩ <;>
    rw [same]
  · exact read?_basic closed s
  · exact read?_basicBlock closed s
  · exact read?_literal closed plain single
  · exact read?_literalBlock closed plain short

theorem exists_write (s : List Char) : ∃ q r, write s = q :: r ∧ (q = '"' ∨ q = '\'') := by
  unfold write
  cases Style.of s with
  | basic | basicBlock => exact ⟨_, _, rfl, .inl rfl⟩
  | literal | literalBlock => exact ⟨_, _, rfl, .inr rfl⟩

end Foreman.Toml.Quoted

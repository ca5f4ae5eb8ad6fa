import Foreman.Json.Printer
import Foreman.Json.Reader

namespace Foreman.Json

theorem hexQuad?_hexByte (h : n < 0x20) :
    hexQuad? '0' '0' (Nat.digitChar (n / 16)) (Nat.digitChar (n % 16)) = some n := by
  have all : ∀ n < 0x20,
      hexQuad? '0' '0' (Nat.digitChar (n / 16)) (Nat.digitChar (n % 16)) = some n := by decide
  exact all n h

theorem stringUnits_escapeChar (c : Char) (r : List Char) :
    stringUnits (escapeChar c ++ r) = consUnit c.toNat (stringUnits r) := by
  unfold escapeChar
  split
  case h_8 noQuote noSlash _ _ _ _ _ =>
    split
    · rename_i control
      simp only [hexByte, List.cons_append, List.nil_append, stringUnits]
      rw [hexQuad?_hexByte control]
    · rename_i plain
      rw [List.singleton_append, stringUnits, if_neg plain]
      · exact noQuote
      · exact fun _ _ _ _ _ slash _ => noSlash slash
      · exact fun _ _ slash _ => noSlash slash
  all_goals rfl

theorem stringUnits_flatMap (s r : List Char) :
    stringUnits (s.flatMap escapeChar ++ '"' :: r) = some (s.map Char.toNat, r) := by
  induction s with
  | nil => rfl
  | cons c s ih =>
    rw [List.flatMap_cons, List.append_assoc, stringUnits_escapeChar, ih]
    rfl

theorem not_isSurrogate (c : Char) :
    isHighSurrogate c.toNat = false ∧ isLowSurrogate c.toNat = false := by
  have valid : c.toNat < 0xD800 ∨ 0xDFFF < c.toNat ∧ c.toNat < 0x110000 := c.valid
  simp only [isHighSurrogate, isLowSurrogate, Bool.and_eq_false_iff, decide_eq_false_iff_not]
  omega

theorem assemble_map_toNat (s : List Char) : assemble (s.map Char.toNat) = some s := by
  induction s with
  | nil => rfl
  | cons c s ih =>
    obtain ⟨high, low⟩ := not_isSurrogate c
    rw [List.map_cons, assemble.eq_def]
    simp [high, low, ih, Char.ofNat_toNat]

theorem stringTail_flatMap (s : String) (r : List Char) :
    stringTail (s.toList.flatMap escapeChar ++ '"' :: r) = some (some s, r) := by
  simp [stringTail, stringUnits_flatMap, assemble_map_toNat]

/-- The number has a form that the grammar knows. -/
structure Number.WellFormed (n : Number) : Prop where
  whole_ne_nil : n.whole ≠ []
  whole : ∀ c ∈ n.whole, Text.isDigit c = true
  leading : ∀ ds, n.whole = '0' :: ds → ds = []
  fraction : ∀ c ∈ n.fraction, Text.isDigit c = true
  exponent : ∀ sign ds, n.exponent = some (sign, ds) →
    ds ≠ [] ∧ ∀ c ∈ ds, Text.isDigit c = true

/-- The characters that may stand behind a value. -/
def followers : List Char := [',', ']', '\x7d', ' ', '\n', '\t', '\r']

/-- Whether a value ends where this text begins. -/
def Ends (rest : List Char) : Prop := ∀ c ∈ rest.head?, c ∈ followers

/-- Whether a row of digits ends where this text begins, and no point follows it. -/
def Halts (rest : List Char) : Prop := ∀ c ∈ rest.head?, Text.isDigit c = false ∧ c ≠ '.'

theorem Ends.halts (h : Ends rest) : Halts rest := by
  have all : ∀ c ∈ followers, (!Text.isDigit c && c != '.') = true :=
    List.all_eq_true.1 (by decide)
  exact fun c hc => by simpa using all c (h c hc)

theorem digitRun_append (digits : ∀ c ∈ ds, Text.isDigit c = true)
    (stop : ∀ c ∈ r.head?, Text.isDigit c = false) : digitRun (ds ++ r) = (ds, r) := by
  have none : r.takeWhile Text.isDigit = [] ∧ r.dropWhile Text.isDigit = r := by
    cases r with
    | nil => exact ⟨rfl, rfl⟩
    | cons c r => simp [stop c rfl]
  simp only [digitRun, List.takeWhile_append_of_pos digits, List.dropWhile_append_of_pos digits,
    none, List.append_nil]

theorem exponentPart?_of_ends (h : Ends rest) : exponentPart? rest = some (none, rest) := by
  cases rest with
  | nil => rfl
  | cons c r =>
    have all : ∀ c ∈ followers, (c != 'e' && c != 'E') = true := List.all_eq_true.1 (by decide)
    have other : ¬ (c = 'e' ∨ c = 'E') := by simpa using all c (h c rfl)
    simp only [exponentPart?, other, if_false]

theorem exponentPart?_exponent (sign : Bool) (ne : ds ≠ [])
    (digits : ∀ c ∈ ds, Text.isDigit c = true) (h : Ends rest) :
    exponentPart? ('e' :: (if sign then '-' else '+') :: ds ++ rest) =
      some (some (sign, ds), rest) := by
  have run := digitRun_append digits fun c hc => (h.halts c hc).1
  have read : exponentDigits? sign (ds ++ rest) = some (some (sign, ds), rest) := by
    rw [exponentDigits?, run]
    cases ds with
    | nil => exact (ne rfl).elim
    | cons d ds => rfl
  cases sign <;> exact read

theorem fractionPart?_of_halts (h : Halts rest) : fractionPart? rest = some ([], rest) := by
  cases rest with
  | nil => rfl
  | cons c r => simp [fractionPart?, (h c rfl).2]

theorem fractionPart?_fraction (ne : ds ≠ []) (digits : ∀ c ∈ ds, Text.isDigit c = true)
    (h : Halts rest) : fractionPart? ('.' :: ds ++ rest) = some (ds, rest) := by
  have run := digitRun_append digits fun c hc => (h c hc).1
  rw [List.cons_append, fractionPart?, run]
  cases ds with
  | nil => exact (ne rfl).elim
  | cons d ds => rfl

theorem wholePart?_append (ne : ds ≠ []) (digits : ∀ c ∈ ds, Text.isDigit c = true)
    (leading : ∀ r, ds = '0' :: r → r = []) (stop : ∀ c ∈ rest.head?, Text.isDigit c = false) :
    wholePart? (ds ++ rest) = some (ds, rest) := by
  rw [wholePart?, digitRun_append digits stop]
  split <;> simp_all

namespace Number

def fractionText (ds : List Char) : List Char := if ds.isEmpty then [] else '.' :: ds

def exponentText : Option (Bool × List Char) → List Char
  | none => []
  | some (negative, ds) => 'e' :: (if negative then '-' else '+') :: ds

theorem render_eq (n : Number) :
    n.render = (if n.negative then ['-'] else []) ++
      (n.whole ++ (fractionText n.fraction ++ exponentText n.exponent)) := by
  obtain ⟨negative, whole, fraction, exponent⟩ := n
  cases exponent <;> simp [render, fractionText, exponentText]

variable {n : Number}

theorem WellFormed.exponentPart? (hn : n.WellFormed) (h : Ends rest) :
    exponentPart? (exponentText n.exponent ++ rest) = some (n.exponent, rest) ∧
      Halts (exponentText n.exponent ++ rest) := by
  cases he : n.exponent with
  | none => exact ⟨exponentPart?_of_ends h, h.halts⟩
  | some e =>
    obtain ⟨sign, ds⟩ := e
    obtain ⟨ne, digits⟩ := hn.exponent sign ds he
    refine ⟨exponentPart?_exponent sign ne digits h, ?_⟩
    intro c hc
    cases hc
    decide

theorem WellFormed.fractionPart? (hn : n.WellFormed) (h : Halts rest) :
    fractionPart? (fractionText n.fraction ++ rest) = some (n.fraction, rest) ∧
      ∀ c ∈ (fractionText n.fraction ++ rest).head?, Text.isDigit c = false := by
  have digits := hn.fraction
  cases hf : n.fraction with
  | nil => exact ⟨fractionPart?_of_halts h, fun c hc => (h c hc).1⟩
  | cons d ds =>
    rw [hf] at digits
    refine ⟨fractionPart?_fraction (List.cons_ne_nil d ds) digits h, ?_⟩
    intro c hc
    cases hc
    rfl

theorem WellFormed.unsigned? (hn : n.WellFormed) (h : Ends rest) :
    unsigned? n.negative
      (n.whole ++ (fractionText n.fraction ++ (exponentText n.exponent ++ rest))) =
      some (n, rest) := by
  obtain ⟨exponent, halts⟩ := hn.exponentPart? h
  obtain ⟨fraction, stops⟩ := hn.fractionPart? halts
  have whole := wholePart?_append hn.whole_ne_nil hn.whole hn.leading stops
  simp only [Json.unsigned?, whole, fraction, exponent, Option.bind_eq_bind, Option.bind_some,
    Option.pure_def]

theorem WellFormed.number? (hn : n.WellFormed) (h : Ends rest) :
    number? (n.render ++ rest) = some (n, rest) := by
  have read := hn.unsigned? h
  rw [render_eq]
  cases hs : n.negative with
  | true =>
    rw [hs] at read
    simpa [Json.number?] using read
  | false =>
    obtain ⟨d, ds, hw⟩ := List.exists_cons_of_ne_nil hn.whole_ne_nil
    have digit : Text.isDigit d = true := hn.whole d (by simp [hw])
    have unsigned : d ≠ '-' := by
      rintro rfl
      cases digit
    rw [hs, hw] at read
    simpa [Json.number?, hw, unsigned] using read

/-- A number begins with its sign or a digit. -/
theorem WellFormed.head (hn : n.WellFormed) :
    ∃ c u, n.render = c :: u ∧ ∀ d, d ≠ '-' → Text.isDigit d = false → c ≠ d := by
  obtain ⟨d, ds, hw⟩ := List.exists_cons_of_ne_nil hn.whole_ne_nil
  rw [render_eq, hw]
  cases n.negative with
  | true => exact ⟨'-', _, rfl, fun d hd _ => hd.symm⟩
  | false =>
    refine ⟨d, _, rfl, ?_⟩
    rintro _ - other rfl
    have digit : Text.isDigit d = true := hn.whole d (by simp [hw])
    rw [digit] at other
    cases other

end Number

/-- White space that may stand between the parts of a document. -/
def Spaces (ws : List Char) : Prop := ∀ c ∈ ws, isSpace c = true

mutual

/-- The ways to write a document, which differ in the white space within it. -/
inductive Spelling : Json → List Char → Prop where
  | null : Spelling .null "null".toList
  | bool (b : Bool) : Spelling (.bool b) (if b then "true".toList else "false".toList)
  | number (h : n.WellFormed) : Spelling (.number n) n.render
  | string (s : String) : Spelling (.string (some s)) (quote s.toList)
  | emptyArray (inside : Spaces ws) : Spelling (.array []) ('[' :: (ws ++ [']']))
  | array (h : ItemSpelling vs t) : Spelling (.array vs) ('[' :: t)
  | emptyObject (inside : Spaces ws) : Spelling (.object []) ('\x7b' :: (ws ++ ['\x7d']))
  | object (h : MemberSpelling ms t) : Spelling (.object ms) ('\x7b' :: t)

/-- The elements of an array and its closing bracket. -/
inductive ItemSpelling : List Json → List Char → Prop where
  | last (before : Spaces ws) (h : Spelling v t) (after : Spaces ws') :
      ItemSpelling [v] (ws ++ (t ++ (ws' ++ [']'])))
  | next (before : Spaces ws) (h : Spelling v t) (after : Spaces ws') (rest : ItemSpelling vs u) :
      ItemSpelling (v :: vs) (ws ++ (t ++ (ws' ++ ',' :: u)))

/-- The members of an object and its closing brace. -/
inductive MemberSpelling : List (Option String × Json) → List Char → Prop where
  | last (before : Spaces ws) (name : String) (behind : Spaces ws₁) (inner : Spaces ws₂)
      (h : Spelling v t) (after : Spaces ws') :
      MemberSpelling [(some name, v)]
        (ws ++ (quote name.toList ++ (ws₁ ++ ':' :: (ws₂ ++ (t ++ (ws' ++ ['\x7d']))))))
  | next (before : Spaces ws) (name : String) (behind : Spaces ws₁) (inner : Spaces ws₂)
      (h : Spelling v t) (after : Spaces ws') (rest : MemberSpelling ms u) :
      MemberSpelling ((some name, v) :: ms)
        (ws ++ (quote name.toList ++ (ws₁ ++ ':' :: (ws₂ ++ (t ++ (ws' ++ ',' :: u))))))

end

theorem Spaces.skipSpace_append (h : Spaces ws) (t : List Char) :
    skipSpace (ws ++ t) = skipSpace t :=
  List.dropWhile_append_of_pos h

theorem Spaces.ends (h : Spaces ws) (hc : c ∈ followers) (rest : List Char) :
    Ends (ws ++ c :: rest) := by
  cases ws with
  | nil =>
    rintro d ⟨⟩
    exact hc
  | cons w ws =>
    rintro d ⟨⟩
    have space := h w List.mem_cons_self
    simp only [isSpace, Bool.or_eq_true, beq_iff_eq] at space
    rcases space with ((rfl | rfl) | rfl) | rfl <;> decide

/-- A value begins with a character that is neither white space nor closes anything. -/
theorem Spelling.head (h : Spelling j t) :
    ∃ c u, t = c :: u ∧ isSpace c = false ∧ c ≠ ']' ∧ c ≠ '\x7d' := by
  cases h with
  | number h =>
    obtain ⟨c, u, hr, other⟩ := h.head
    refine ⟨c, u, hr, ?_, other _ (by decide) rfl, other _ (by decide) rfl⟩
    simp only [isSpace, Bool.or_eq_false_iff, beq_eq_false_iff_ne]
    refine ⟨⟨⟨?_, ?_⟩, ?_⟩, ?_⟩ <;> exact other _ (by decide) rfl
  | bool b => cases b <;> exact ⟨_, _, rfl, rfl, by decide, by decide⟩
  | _ => exact ⟨_, _, rfl, rfl, by decide, by decide⟩

theorem Spelling.skipSpace_append (h : Spelling j t) (r : List Char) :
    skipSpace (t ++ r) = t ++ r := by
  obtain ⟨c, u, rfl, solid, -⟩ := h.head
  simp [skipSpace, solid]

theorem ItemSpelling.head (h : ItemSpelling vs t) (rest : List Char) :
    ∃ c u, skipSpace (t ++ rest) = c :: u ∧ c ≠ ']' := by
  cases h with
  | last before h after | next before h after more =>
    rw [List.append_assoc, before.skipSpace_append, List.append_assoc, h.skipSpace_append]
    obtain ⟨c, u, rfl, -, ne, -⟩ := h.head
    exact ⟨c, _, rfl, ne⟩

theorem MemberSpelling.head (h : MemberSpelling ms t) (rest : List Char) :
    ∃ u, skipSpace (t ++ rest) = '"' :: u := by
  cases h with
  | last before | next before =>
    rw [List.append_assoc, before.skipSpace_append]
    exact ⟨_, rfl⟩

theorem skipSpace_skipSpace (s : List Char) : skipSpace (skipSpace s) = skipSpace s := by
  induction s with
  | nil => rfl
  | cons c s ih =>
    cases space : isSpace c with
    | true => simpa [skipSpace, space] using ih
    | false => simp [skipSpace, space]

theorem items_skipSpace (fuel : Nat) (s : List Char) : items fuel (skipSpace s) = items fuel s := by
  cases fuel with
  | zero => rfl
  | succ fuel => rw [items, items, skipSpace_skipSpace]

theorem members_skipSpace (fuel : Nat) (s : List Char) :
    members fuel (skipSpace s) = members fuel s := by
  cases fuel with
  | zero => rfl
  | succ fuel => rw [members, members, skipSpace_skipSpace]

theorem value_of_number {n : Number} (hn : n.WellFormed) (ends : Ends rest) (fuel : Nat) :
    value (fuel + 1) (n.render ++ rest) = some (.number n, rest) := by
  have read := hn.number? ends
  obtain ⟨c, u, hr, other⟩ := hn.head
  rw [hr, List.cons_append] at read ⊢
  rw [value, read]
  · rfl
  all_goals
    intro r same
    injection same with first
    exact other _ (by decide) rfl first

theorem Spaces.skipSpace_mark (h : Spaces ws) (mark : isSpace c = false) (r : List Char) :
    skipSpace (ws ++ c :: r) = c :: r := by
  rw [h.skipSpace_append]
  simp [skipSpace, mark]

-- By recursion on the spelling. Each value, list of items and list of members takes one unit of
-- fuel, and is spelled in one character at least.
mutual

theorem Spelling.value (h : Spelling j t) (ends : Ends rest) (enough : t.length ≤ fuel) :
    value fuel (t ++ rest) = some (j, rest) := by
  cases fuel with
  | zero =>
    obtain ⟨c, u, rfl, -⟩ := h.head
    cases enough
  | succ fuel =>
    cases h with
    | null => rfl
    | bool b => cases b <;> rfl
    | number h => exact value_of_number h ends fuel
    | string s =>
      have text : quote s.toList ++ rest = '"' :: (s.toList.flatMap escapeChar ++ '"' :: rest) := by
        simp [quote]
      rw [text, Json.value, stringTail_flatMap]
      rfl
    | emptyArray inside =>
      rw [List.cons_append, List.append_assoc, Json.value, List.singleton_append,
        inside.skipSpace_mark rfl]
      rfl
    | emptyObject inside =>
      rw [List.cons_append, List.append_assoc, Json.value, List.singleton_append,
        inside.skipSpace_mark rfl]
      rfl
    | array h =>
      have read := h.items rest (Nat.le_of_succ_le_succ enough)
      obtain ⟨c, u, begins, ne⟩ := h.head rest
      rw [← items_skipSpace, begins] at read
      rw [List.cons_append, Json.value, begins]
      simp [ne, read]
    | object h =>
      have read := h.members rest (Nat.le_of_succ_le_succ enough)
      obtain ⟨u, begins⟩ := h.head rest
      rw [← members_skipSpace, begins] at read
      rw [List.cons_append, Json.value, begins]
      simp [read]

theorem ItemSpelling.items (h : ItemSpelling vs t) (rest : List Char)
    (enough : t.length ≤ fuel) : items fuel (t ++ rest) = some (vs, rest) := by
  cases fuel with
  | zero => cases h <;> simp at enough
  | succ fuel =>
    cases h with
    | @last ws v t ws' before h after =>
      have room : t.length ≤ fuel := by
        simp only [List.length_append, List.length_singleton] at enough
        omega
      have read := h.value (after.ends (c := ']') (by decide) rest) room
      simp only [List.append_assoc, List.singleton_append]
      rw [Json.items, before.skipSpace_append, h.skipSpace_append, read]
      simp only [Option.bind_eq_bind, Option.bind_some]
      rw [after.skipSpace_mark rfl]
      rfl
    | @next ws v t ws' vs u before h after more =>
      have room : t.length ≤ fuel ∧ u.length ≤ fuel := by
        simp only [List.length_append, List.length_cons] at enough
        omega
      have read := h.value (after.ends (c := ',') (by decide) (u ++ rest)) room.1
      have others := more.items rest room.2
      simp only [List.append_assoc, List.cons_append]
      rw [Json.items, before.skipSpace_append, h.skipSpace_append, read]
      simp only [Option.bind_eq_bind, Option.bind_some]
      rw [after.skipSpace_mark rfl]
      simp only [others, Option.bind_some]

theorem MemberSpelling.members (h : MemberSpelling ms t) (rest : List Char)
    (enough : t.length ≤ fuel) : members fuel (t ++ rest) = some (ms, rest) := by
  cases fuel with
  | zero => cases h <;> simp at enough
  | succ fuel =>
    cases h with
    | @last ws ws₁ ws₂ v t ws' before name behind inner h after =>
      have room : t.length ≤ fuel := by
        simp only [List.length_append, List.length_cons] at enough
        omega
      have read := h.value (after.ends (c := '\x7d') (by decide) rest) room
      simp only [quote, List.append_assoc, List.cons_append, List.nil_append]
      rw [Json.members, before.skipSpace_mark rfl]
      simp only [Option.bind_eq_bind, stringTail_flatMap, Option.bind_some]
      rw [behind.skipSpace_mark rfl]
      simp only
      rw [inner.skipSpace_append, h.skipSpace_append, read]
      simp only [Option.bind_some]
      rw [after.skipSpace_mark rfl]
      rfl
    | @next ws ws₁ ws₂ v t ws' ms u before name behind inner h after more =>
      have room : t.length ≤ fuel ∧ u.length ≤ fuel := by
        simp only [List.length_append, List.length_cons] at enough
        omega
      have read := h.value (after.ends (c := ',') (by decide) (u ++ rest)) room.1
      have others := more.members rest room.2
      simp only [quote, List.append_assoc, List.cons_append, List.nil_append]
      rw [Json.members, before.skipSpace_mark rfl]
      simp only [Option.bind_eq_bind, stringTail_flatMap, Option.bind_some]
      rw [behind.skipSpace_mark rfl]
      simp only
      rw [inner.skipSpace_append, h.skipSpace_append, read]
      simp only [Option.bind_some]
      rw [after.skipSpace_mark rfl]
      simp only [others, Option.bind_some]

end

/-- Behind a document nothing but white space may follow. -/
theorem Spelling.parse?_append (h : Spelling j t) (ends : Ends rest) :
    parse? (t ++ rest) = if (skipSpace rest).isEmpty then some j else none := by
  have enough : t.length ≤ (t ++ rest).length + 1 := by
    rw [List.length_append]
    omega
  rw [Json.parse?, h.skipSpace_append, h.value ends enough]

theorem Spelling.parse? (h : Spelling j t) : parse? t = some j := by
  have ends : Ends [] := by
    rintro c ⟨⟩
  have read := h.parse?_append ends
  rw [List.append_nil] at read
  exact read

/-- A document of which nothing is lost in writing: its numbers have a form that the grammar knows,
and its strings and names are texts, of which `ok` holds. -/
inductive Sound (ok : String → Prop) : Json → Prop where
  | null : Sound ok .null
  | bool (b : Bool) : Sound ok (.bool b)
  | number (h : n.WellFormed) : Sound ok (.number n)
  | string (h : ok s) : Sound ok (.string (some s))
  | array (items : ∀ v ∈ vs, Sound ok v) : Sound ok (.array vs)
  | object (names : ∀ m ∈ ms, ∃ name, m.1 = some name ∧ ok name) (values : ∀ m ∈ ms, Sound ok m.2) :
      Sound ok (.object ms)

theorem Sound.imp {ok ok' : String → Prop} (weaker : ∀ s, ok s → ok' s) (h : Sound ok j) :
    Sound ok' j := by
  induction h with
  | null => exact .null
  | bool b => exact .bool b
  | number h => exact .number h
  | string h => exact .string (weaker _ h)
  | array items ih => exact .array ih
  | object names values ih =>
    refine .object (fun m hm => ?_) ih
    obtain ⟨name, hn, h⟩ := names m hm
    exact ⟨name, hn, weaker name h⟩

theorem spaces_nil : Spaces [] := by
  rintro c ⟨⟩

variable {print : Json → List Char}

/-- A printer that puts the same white space before each element spells a list of them. -/
theorem itemSpelling_of_print {others : List Json → List Char} (before : Spaces ws)
    (after : Spaces ws') (close : others [] = ws' ++ [']'])
    (next : ∀ v vs, others (v :: vs) = ',' :: (ws ++ (print v ++ others vs)))
    (h : ∀ x ∈ v :: vs, Spelling x (print x)) :
    ItemSpelling (v :: vs) (ws ++ (print v ++ others vs)) := by
  have first := h v List.mem_cons_self
  induction vs generalizing v with
  | nil =>
    rw [close]
    exact .last before first after
  | cons w vs ih =>
    have later : ∀ x ∈ w :: vs, Spelling x (print x) := fun x hx => h x (List.mem_cons_of_mem v hx)
    rw [next]
    exact .next before first spaces_nil (ih later (later w List.mem_cons_self))

theorem memberSpelling_of_print {others : List (Option String × Json) → List Char}
    (before : Spaces ws) (inner : Spaces ws₁) (after : Spaces ws')
    (close : others [] = ws' ++ ['\x7d'])
    (next : ∀ name v ms, others ((name, v) :: ms) =
      ',' :: (ws ++ (quoteText name ++ ':' :: (ws₁ ++ (print v ++ others ms)))))
    (names : ∀ m ∈ (some name, v) :: ms, ∃ name, m.1 = some name)
    (values : ∀ m ∈ (some name, v) :: ms, Spelling m.2 (print m.2)) :
    MemberSpelling ((some name, v) :: ms)
      (ws ++ (quoteText (some name) ++ ':' :: (ws₁ ++ (print v ++ others ms)))) := by
  have first := values (some name, v) List.mem_cons_self
  induction ms generalizing name v with
  | nil =>
    rw [close]
    exact .last before name spaces_nil inner first after
  | cons m ms ih =>
    obtain ⟨optional, w⟩ := m
    obtain ⟨other, rfl⟩ := names (optional, w) (by simp)
    have later : ∀ m ∈ (some other, w) :: ms, Spelling m.2 (print m.2) :=
      fun m hm => values m (List.mem_cons_of_mem _ hm)
    have rest := ih (fun m hm => names m (List.mem_cons_of_mem _ hm)) later
      (later (some other, w) List.mem_cons_self)
    rw [next]
    exact .next before name spaces_nil inner first spaces_nil rest

theorem Sound.spelling_compact (h : Sound ok j) : Spelling j (compactChars j) := by
  induction h with
  | null => exact .null
  | bool b => cases b <;> exact .bool _
  | number h => exact .number h
  | string h => exact .string _
  | @array vs items ih =>
    cases vs with
    | nil => exact .emptyArray spaces_nil
    | cons v vs =>
      exact .array (itemSpelling_of_print spaces_nil spaces_nil rfl (fun _ _ => rfl) ih)
  | @object ms names values ih =>
    cases ms with
    | nil => exact .emptyObject spaces_nil
    | cons m ms =>
      have named : ∀ x ∈ m :: ms, ∃ name, x.1 = some name := by
        intro x hx
        obtain ⟨name, hn, -⟩ := names x hx
        exact ⟨name, hn⟩
      obtain ⟨optional, v⟩ := m
      obtain ⟨name, rfl⟩ := named (optional, v) List.mem_cons_self
      have next (name : Option String) (v : Json) (ms : List (Option String × Json)) :
          compactMembers ((name, v) :: ms) =
            ',' :: (quoteText name ++ ':' :: (compactChars v ++ compactMembers ms)) := by
        simp [compactMembers]
      have spelled := memberSpelling_of_print spaces_nil spaces_nil spaces_nil rfl next named ih
      simpa [compactChars] using Spelling.object spelled

/-- Documents survive being written on one line. -/
theorem Sound.parse?_compact (h : Sound ok j) : Json.parse? (compactChars j) = some j :=
  h.spelling_compact.parse?

end Foreman.Json

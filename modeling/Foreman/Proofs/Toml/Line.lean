import Foreman.Proofs.Toml.Value

namespace Foreman.Toml

def OpensKey (c : Char) : Prop := (c = '"' ∨ c = '\'') ∨ isKeyChar c = true

theorem OpensKey.solid (h : OpensKey c) : Solid c := h.elim solid_quote solid_of_isKeyChar

theorem OpensKey.ne_bracket (h : OpensKey c) : c ≠ '[' := by
  rintro rfl
  rcases h with (h | h) | h <;> cases h

theorem exists_writeKey (s : List Char) : ∃ c r, writeKey s = c :: r ∧ OpensKey c := by
  unfold writeKey
  dsimp only
  split
  · rename_i bare
    simp only [Bool.and_eq_true, List.all_eq_true] at bare
    cases s with
    | nil => simp at bare
    | cons c s => exact ⟨c, s, rfl, .inr (bare.2 c List.mem_cons_self)⟩
  · split
    · exact ⟨_, _, rfl, .inl (.inl rfl)⟩
    · split
      · exact ⟨_, _, rfl, .inl (.inr rfl)⟩
      · exact ⟨_, _, rfl, .inl (.inl rfl)⟩

theorem keyPart?_bare (ne : s ≠ []) (bare : ∀ c ∈ s, isKeyChar c = true)
    (stop : ∀ c ∈ r.head?, isKeyChar c = false) :
    keyPart? (s ++ r) = some (String.ofList s, r) := by
  obtain ⟨front, back⟩ := takeWhile_row bare stop
  obtain ⟨c, s, rfl⟩ := List.exists_cons_of_ne_nil ne
  have first := bare c List.mem_cons_self
  rw [keyPart?, front, back]
  · rintro r' same
    cases same
    cases first
  · rintro r' same
    cases same
    cases first

theorem keyPart?_writeKey (stop : ∀ c ∈ r.head?, isKeyChar c = false) (s : List Char) :
    keyPart? (writeKey s ++ r) = some (String.ofList s, r) := by
  have basic : keyPart? (Quoted.Style.basic.write s ++ r) = some (String.ofList s, r) := by
    rw [Quoted.Style.write, List.append_assoc, List.cons_append, List.singleton_append, keyPart?,
      Quoted.basicTail_line]
    rfl
  unfold writeKey
  dsimp only
  split
  · rename_i bare
    simp only [Bool.and_eq_true, Bool.not_eq_true', List.isEmpty_eq_false_iff,
      List.all_eq_true] at bare
    exact keyPart?_bare bare.1 bare.2 stop
  · split
    · exact basic
    · split
      · rename_i literal
        simp only [Bool.and_eq_true, Bool.not_eq_true', List.any_eq_false,
          Bool.not_eq_true] at literal
        have single : '\'' ∉ s := by simpa using literal.2
        rw [Quoted.Style.write, List.append_assoc, List.cons_append, List.singleton_append,
          keyPart?, Quoted.literalTail_append literal.1 single]
        rfl
      · exact basic

def writePath (names : List String) : List Char :=
  ['.'].intercalate (names.map fun k => writeKey k.toList)

theorem writePath_singleton (name : String) : writePath [name] = writeKey name.toList := by
  simp [writePath]

theorem writePath_cons (ne : names ≠ []) (name : String) :
    writePath (name :: names) = writeKey name.toList ++ '.' :: writePath names := by
  obtain ⟨other, names, rfl⟩ := List.exists_cons_of_ne_nil ne
  simp [writePath]

theorem writeHeader_eq (ne : names ≠ []) :
    writeHeader names = '[' :: writePath names ++ [']', '\n'] := by
  rw [writeHeader]
  · rfl
  · exact ne

/-- What follows a key on blanks, which is not a further part of it. -/
structure Behind (r r' : List Char) : Prop where
  stop : ∀ c ∈ r.head?, isKeyChar c = false
  skip : skipMargin r = r'
  last : r'.head? ≠ some '.'

theorem skipMargin_writeKey (s r : List Char) : skipMargin (writeKey s ++ r) = writeKey s ++ r := by
  obtain ⟨c, tail, same, opens⟩ := exists_writeKey s
  rw [same]
  exact opens.solid.skipMargin (tail ++ r)

theorem keyParts_writeKey (behind : Behind r r') (before : List String) (name : String)
    (fuel : Nat) :
    keyParts (fuel + 1) before (writeKey name.toList ++ r) = some (⟨before, name⟩, r') := by
  rw [keyParts, skipMargin_writeKey, keyPart?_writeKey behind.stop, String.ofList_toList]
  simp only [bind, Option.bind, behind.skip]
  split
  · exact (behind.last rfl).elim
  · rfl

theorem keyParts_point (before : List String) (name : String) (fuel : Nat) (r : List Char) :
    keyParts (fuel + 1) before (writeKey name.toList ++ '.' :: r) =
      keyParts fuel (before ++ [name]) r := by
  have stop : ∀ c ∈ ('.' :: r).head?, isKeyChar c = false := by
    rintro c ⟨⟩
    rfl
  rw [keyParts, skipMargin_writeKey, keyPart?_writeKey stop, String.ofList_toList]
  rfl

theorem keyParts_writePath (behind : Behind r r') (tables before : List String) (name : String)
    (enough : tables.length < fuel) :
    keyParts fuel before (writePath (tables ++ [name]) ++ r) =
      some (⟨before ++ tables, name⟩, r') := by
  obtain ⟨fuel, rfl⟩ := Nat.exists_eq_succ_of_ne_zero (Nat.ne_zero_of_lt enough)
  induction tables generalizing before fuel with
  | nil =>
    rw [List.append_nil, List.nil_append, writePath_singleton, keyParts_writeKey behind]
  | cons table tables ih =>
    obtain ⟨fuel, rfl⟩ := Nat.exists_eq_succ_of_ne_zero
      (Nat.ne_zero_of_lt (Nat.lt_of_succ_lt_succ enough))
    have later := ih (before ++ [table]) fuel (Nat.lt_of_succ_lt_succ enough)
    rw [List.cons_append, writePath_cons (by simp), List.append_assoc, List.cons_append,
      keyParts_point, later, List.append_assoc]
    rfl

theorem length_le_writePath (names : List String) : names.length ≤ (writePath names).length := by
  induction names with
  | nil => exact Nat.zero_le _
  | cons name names ih =>
    obtain ⟨c, tail, same, -⟩ := exists_writeKey name.toList
    cases names with
    | nil => simp [writePath_singleton, same]
    | cons other names =>
      rw [writePath_cons (by simp), same]
      simp only [List.length_cons, List.length_append] at ih ⊢
      omega

theorem key?_writePath (behind : Behind r r') (tables : List String) (name : String) :
    key? (writePath (tables ++ [name]) ++ r) = some (⟨tables, name⟩, r') := by
  have long := length_le_writePath (tables ++ [name])
  simp only [List.length_append, List.length_singleton] at long
  apply keyParts_writePath behind tables [] name
  simp only [List.length_append]
  omega

theorem exists_writePath (ne : names ≠ []) : ∃ c r, writePath names = c :: r ∧ OpensKey c := by
  obtain ⟨name, names, rfl⟩ := List.exists_cons_of_ne_nil ne
  obtain ⟨c, r, same, opens⟩ := exists_writeKey name.toList
  cases names with
  | nil => exact ⟨c, r, (writePath_singleton name).trans same, opens⟩
  | cons other names =>
    rw [writePath_cons (by simp), same]
    exact ⟨c, _, rfl, opens⟩

theorem skipMargin_write (v : Written) (r : List Char) :
    skipMargin (' ' :: (v.write ++ r)) = v.write ++ r := by
  have first : ∃ c tail, v.write = c :: tail ∧ Solid c := by
    cases v with
    | number n =>
      obtain ⟨c, ds, same⟩ := List.exists_cons_of_ne_nil (Text.ofNat_ne_nil n)
      have digit : Text.isDigit c = true := Text.isDigit_of_mem_ofNat (same ▸ List.mem_cons_self)
      refine ⟨c, ds, same, solid_of_isKeyChar ?_⟩
      simp [isKeyChar, Text.isAlphanumericAscii, digit]
    | text s =>
      obtain ⟨q, tail, same, quote⟩ := exists_writeText s
      exact ⟨q, tail, same, solid_quote quote⟩
    | texts ss =>
      have bracket : Solid '[' := ⟨rfl, by decide, by decide, by decide, by decide⟩
      rcases ss with _ | ⟨s, _ | ⟨s', ss⟩⟩ <;> exact ⟨'[', _, rfl, bracket⟩
  obtain ⟨c, tail, same, solid⟩ := first
  rw [same]
  exact solid.skipMargin (tail ++ r)

theorem line?_writeEntry {v : Written} (fits : v.Fits) (name : String) (r : List Char) :
    line? (writeEntry (name, v) ++ r) = some (.entry ⟨[], name⟩ v.toToml, '\n' :: r) := by
  have behind : Behind (' ' :: '=' :: ' ' :: (v.write ++ '\n' :: r))
      ('=' :: ' ' :: (v.write ++ '\n' :: r)) := by
    refine ⟨?_, rfl, by simp⟩
    rintro c ⟨⟩
    rfl
  have key := key?_writePath behind [] name
  rw [List.nil_append, writePath_singleton] at key
  have whole : writeEntry (name, v) ++ r =
      writeKey name.toList ++ ' ' :: '=' :: ' ' :: (v.write ++ '\n' :: r) := by
    simp [writeEntry]
  obtain ⟨c, tail, same, opens⟩ := exists_writeKey name.toList
  have entry : line? (writeEntry (name, v) ++ r) =
      (assignment? (value depthLimit) (writeEntry (name, v) ++ r)).map
        fun x => (.entry x.1.1 x.1.2, x.2) := by
    rw [whole, same, List.cons_append, line?]
    · exact fun _ same => (opens.ne_bracket (List.cons.inj same).1).elim
    · exact fun _ same => (opens.ne_bracket (List.cons.inj same).1).elim
  rw [entry, assignment?, whole, key]
  simp only [bind, Option.bind, skipMargin_write]
  rw [show depthLimit = 79 + 1 from rfl, value_write fits]
  rfl

theorem line?_writeHeader (tables : List String) (name : String) (r : List Char) :
    line? (writeHeader (tables ++ [name]) ++ r) = some (.table ⟨tables, name⟩, '\n' :: r) := by
  have behind : Behind (']' :: '\n' :: r) (']' :: '\n' :: r) := by
    refine ⟨?_, rfl, by simp⟩
    rintro c ⟨⟩
    rfl
  have key := key?_writePath behind tables name
  have ne : tables ++ [name] ≠ [] := by simp
  obtain ⟨c, tail, same, opens⟩ := exists_writePath ne
  have whole : writeHeader (tables ++ [name]) ++ r =
      '[' :: (writePath (tables ++ [name]) ++ ']' :: '\n' :: r) := by
    simp [writeHeader_eq]
  rw [whole]
  rw [same] at key ⊢
  rw [List.cons_append, line?]
  · rw [← List.cons_append, key]
    rfl
  · exact fun _ same => opens.ne_bracket (List.cons.inj same).1

end Foreman.Toml

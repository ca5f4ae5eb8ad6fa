import Foreman.Redaction.Pattern

/-!
# What the credential patterns describe

A pattern describes texts without regard to how they are looked for. Taking all the characters it
can, a part never misses what the pattern describes, because no part takes the character with which
the next one begins.
-/

namespace Foreman.Redaction

namespace Part

variable {part next : Part} {s x : List Char}

def accepts : Part → Char → Bool
  | .one accepts | .run accepts _ => accepts

/-- The number of characters that a part takes at least. -/
def least : Part → Nat
  | .one _ => 1
  | .run _ least => least

def Describes : Part → List Char → Prop
  | .one accepts, w => ∃ c, accepts c = true ∧ w = [c]
  | .run accepts least, w => least ≤ w.length ∧ ∀ c ∈ w, accepts c = true

/-- Whether a part that has come to a text takes nothing of it any more. -/
def StopsAt : Part → List Char → Prop
  | .one _, _ => True
  | .run accepts _, s => ∀ c, s.head? = some c → accepts c = false

/-- Whether a part stops where the next one begins. -/
def Apart : Part → Part → Prop
  | .one _, _ => True
  | .run accepts _, next => 0 < next.least ∧ ∀ c, next.accepts c = true → accepts c = false

theorem Describes.accepts (h : part.Describes x) : ∀ c ∈ x, part.accepts c = true := by
  cases part with
  | one accepts =>
    obtain ⟨d, hd, rfl⟩ := h
    intro c hc
    rw [List.mem_singleton.1 hc]
    exact hd
  | run accepts least => exact h.2

theorem Describes.least_le (h : part.Describes x) : part.least ≤ x.length := by
  cases part with
  | one accepts =>
    obtain ⟨d, hd, rfl⟩ := h
    exact Nat.le_refl 1
  | run accepts least => exact h.1

theorem describes_take (h : part.length? s = some n) :
    n ≤ s.length ∧ part.Describes (s.take n) := by
  cases part with
  | one accepts =>
    cases s with
    | nil => cases h
    | cons c r =>
      simp only [length?] at h
      split at h <;> cases h
      exact ⟨Nat.le_add_left .., c, ‹_›, rfl⟩
  | run accepts least =>
    simp only [length?] at h
    split at h <;> cases h
    rename_i enough
    have taken : s.takeWhile accepts <+: s := List.takeWhile_prefix accepts
    refine ⟨taken.length_le, ?_⟩
    rw [← List.prefix_iff_eq_take.1 taken]
    exact ⟨Nat.le_of_not_lt enough, List.all_eq_true.1 List.all_takeWhile⟩

theorem stopsAt_drop (h : part.length? s = some n) : part.StopsAt (s.drop n) := by
  cases part with
  | one accepts => exact True.intro
  | run accepts least =>
    simp only [length?] at h
    split at h <;> cases h
    intro c hc
    have dropped : s.drop (s.takeWhile accepts).length = s.dropWhile accepts := by
      conv => lhs; arg 2; rw [← List.takeWhile_append_dropWhile (p := accepts) (l := s)]
      exact List.drop_left
    rw [dropped] at hc
    have stop := List.head?_dropWhile_not accepts s
    rwa [hc] at stop

theorem Describes.length? (h : part.Describes x) (stop : part.StopsAt s) :
    part.length? (x ++ s) = some x.length := by
  cases part with
  | one accepts =>
    obtain ⟨c, hc, rfl⟩ := h
    simp [Part.length?, hc]
  | run accepts least =>
    have none : s.takeWhile accepts = [] := by
      cases s with
      | nil => rfl
      | cons c r => simp [stop c rfl]
    have taken : (x ++ s).takeWhile accepts = x := by
      rw [List.takeWhile_append_of_pos h.2, none, List.append_nil]
    simp only [Part.length?, taken]
    rw [if_neg (Nat.not_lt.2 h.1)]

theorem Describes.length?_isSome (h : part.Describes x) (s : List Char) :
    (part.length? (x ++ s)).isSome := by
  cases part with
  | one accepts =>
    obtain ⟨c, hc, rfl⟩ := h
    simp [Part.length?, hc]
  | run accepts least =>
    have enough : least ≤ x.length + (s.takeWhile accepts).length :=
      Nat.le_trans h.1 (Nat.le_add_right ..)
    simp [Part.length?, List.takeWhile_append_of_pos h.2, enough]

end Part

namespace Pattern

variable {p : Pattern} {s w : List Char}

/-- One text for each part, one behind the other. -/
inductive Describes : Pattern → List Char → Prop where
  | nil : Describes [] []
  | cons {part : Part} {ps : Pattern} {x y : List Char} (head : part.Describes x)
      (tail : Describes ps y) : Describes (part :: ps) (x ++ y)

/-- Whether something that a pattern describes stands in a text, where a word may begin; the text
itself stands behind a character or at the beginning. -/
def OccursBehind (p : Pattern) (before : Option Char) (s : List Char) : Prop :=
  ∃ l w r, s = l ++ w ++ r ∧ atBoundary (l.getLast?.or before) = true ∧ p.Describes w

/-- Whether a text holds a credential of this kind. -/
def OccursIn (p : Pattern) (s : List Char) : Prop := p.OccursBehind none s

def Separated : Pattern → Prop
  | part :: next :: ps => part.Apart next ∧ Separated (next :: ps)
  | _ => True

/-- The number of characters that a pattern takes at least. -/
def least : Pattern → Nat
  | [] => 0
  | part :: ps => part.least + least ps

/-- What every credential pattern is like. It begins with an ASCII letter or digit and ends with a
run that takes them all, so that no credential begins right behind another one; and what it
describes neither crosses a placeholder nor fits into one. -/
structure WellFormed (p : Pattern) : Prop where
  separated : p.Separated
  begins : ∃ accepts ps, p = .one accepts :: ps ∧
    ∀ c, accepts c = true → Text.isAlphanumericAscii c = true
  ends : ∃ accepts least, p.getLast? = some (.run accepts least) ∧
    ∀ c, Text.isAlphanumericAscii c = true → accepts c = true
  unbracketed : ∀ part ∈ p, part.accepts '[' = false ∧ part.accepts ']' = false := by decide
  long : 8 < p.least := by decide

theorem Describes.mem (h : p.Describes w) (hc : c ∈ w) : ∃ part ∈ p, part.accepts c = true := by
  induction h with
  | nil => cases hc
  | cons head tail ih =>
    rcases List.mem_append.1 hc with hc | hc
    · exact ⟨_, List.mem_cons_self, head.accepts c hc⟩
    · obtain ⟨part, hm, ha⟩ := ih hc
      exact ⟨part, List.mem_cons_of_mem _ hm, ha⟩

theorem Describes.least_le (h : p.Describes w) : p.least ≤ w.length := by
  induction h with
  | nil => exact Nat.le_refl 0
  | cons head tail ih =>
    rw [List.length_append]
    exact Nat.add_le_add head.least_le ih

/-- Nothing that a pattern describes stands in a text without the characters of one of its parts. -/
theorem not_occursIn_of_lacks (hp : part ∈ p) (pos : 0 < part.least)
    (lacks : ∀ c ∈ s, part.accepts c = false) : ¬ p.OccursIn s := by
  rintro ⟨l, w, r, rfl, -, hw⟩
  have taken : ∃ c ∈ w, part.accepts c = true := by
    clear lacks
    induction hw with
    | nil => cases hp
    | @cons first ps x y head tail ih =>
      rcases List.mem_cons.1 hp with rfl | hp
      · obtain ⟨c, hc⟩ := List.exists_mem_of_length_pos (Nat.lt_of_lt_of_le pos head.least_le)
        exact ⟨c, List.mem_append_left y hc, head.accepts c hc⟩
      · obtain ⟨c, hc, accepted⟩ := ih hp
        exact ⟨c, List.mem_append_right x hc, accepted⟩
  obtain ⟨c, hc, accepted⟩ := taken
  have refused := lacks c (List.mem_append_left r (List.mem_append_right l hc))
  rw [accepted] at refused
  cases refused

theorem length?_cons_eq_some :
    length? (part :: ps) s = some n ↔
      ∃ k m, part.length? s = some k ∧ length? ps (s.drop k) = some m ∧ k + m = n := by
  simp [length?, Option.bind_eq_some_iff]

theorem describes_take (h : p.length? s = some n) : n ≤ s.length ∧ p.Describes (s.take n) := by
  induction p generalizing s n with
  | nil =>
    cases h
    exact ⟨Nat.zero_le _, .nil⟩
  | cons part ps ih =>
    obtain ⟨k, m, hk, hm, rfl⟩ := length?_cons_eq_some.1 h
    obtain ⟨le, head⟩ := Part.describes_take hk
    obtain ⟨le', tail⟩ := ih hm
    rw [List.length_drop] at le'
    rw [List.take_add]
    exact ⟨by omega, .cons head tail⟩

theorem stopsAt_drop (h : p.length? s = some n) (last : p.getLast? = some part) :
    part.StopsAt (s.drop n) := by
  induction p generalizing s n with
  | nil => cases last
  | cons first ps ih =>
    obtain ⟨k, m, hk, hm, rfl⟩ := length?_cons_eq_some.1 h
    cases ps with
    | nil =>
      cases last
      cases hm
      exact Part.stopsAt_drop hk
    | cons next ps =>
      rw [← List.drop_drop]
      exact ih hm (by simpa using last)

theorem Describes.head_accepts (h : Describes (part :: ps) w) (pos : 0 < part.least) :
    ∃ c r, w = c :: r ∧ part.accepts c = true := by
  cases h with
  | @cons _ _ x y head tail =>
    cases x with
    | nil => exact absurd head.least_le (Nat.not_le.2 pos)
    | cons c x => exact ⟨c, x ++ y, rfl, head.accepts c List.mem_cons_self⟩

theorem Describes.length?_isSome (h : p.Describes w) (separated : p.Separated) (s : List Char) :
    (p.length? (w ++ s)).isSome := by
  induction h with
  | nil => rfl
  | @cons part ps x y head tail ih =>
    cases ps with
    | nil =>
      cases tail
      obtain ⟨k, hk⟩ := Option.isSome_iff_exists.1 (head.length?_isSome s)
      simp [length?, hk]
    | cons next ps =>
      -- The part stops at `y`, and so takes `x` and nothing else.
      have stop : part.StopsAt (y ++ s) := by
        cases part with
        | one => exact True.intro
        | run accepts least =>
          obtain ⟨c, r, rfl, hc⟩ := tail.head_accepts separated.1.1
          intro d hd
          cases hd
          exact separated.1.2 c hc
      obtain ⟨m, hm⟩ := Option.isSome_iff_exists.1 (ih separated.2)
      have taken : Part.length? part (x ++ (y ++ s)) = some x.length := head.length? stop
      refine Option.isSome_iff_exists.2 ⟨x.length + m, ?_⟩
      rw [List.append_assoc]
      refine length?_cons_eq_some.2 ⟨_, _, taken, ?_, rfl⟩
      rw [List.drop_left]
      exact hm

theorem WellFormed.least_lt (hp : p.WellFormed) (hw : p.Describes w) : 8 < w.length :=
  Nat.lt_of_lt_of_le hp.long hw.least_le

theorem WellFormed.not_mem_bracket (hp : p.WellFormed) (hw : p.Describes w) :
    '[' ∉ w ∧ ']' ∉ w := by
  constructor
  · intro hc
    obtain ⟨part, hm, ha⟩ := hw.mem hc
    rw [(hp.unbracketed part hm).1] at ha
    cases ha
  · intro hc
    obtain ⟨part, hm, ha⟩ := hw.mem hc
    rw [(hp.unbracketed part hm).2] at ha
    cases ha

theorem WellFormed.head_alphanumeric (hp : p.WellFormed) (hw : p.Describes w) :
    ∃ c r, w = c :: r ∧ Text.isAlphanumericAscii c = true := by
  obtain ⟨accepts, ps, rfl, letter⟩ := hp.begins
  obtain ⟨c, r, rfl, hc⟩ := hw.head_accepts Nat.one_pos
  exact ⟨c, r, rfl, letter c hc⟩

/-- Behind a credential stands no ASCII letter or digit. -/
theorem WellFormed.head_drop (hp : p.WellFormed) (h : p.length? (c :: s) = some n) :
    ∀ d, (s.drop (n - 1)).head? = some d → Text.isAlphanumericAscii d = false := by
  intro d hd
  obtain ⟨le, described⟩ := describes_take h
  have taken := hp.least_lt described
  rw [List.length_take, Nat.min_eq_left le] at taken
  obtain ⟨k, rfl⟩ : ∃ k, n = k + 1 := ⟨n - 1, by omega⟩
  obtain ⟨accepts, least, last, all⟩ := hp.ends
  have stop : accepts d = false := stopsAt_drop h last d hd
  apply Bool.eq_false_iff.2
  intro alphanumeric
  rw [all d alphanumeric] at stop
  cases stop

theorem isAlphanumericAscii_of_lowerChar {letter : Char}
    (hl : Text.isAlphanumericAscii letter = true) (h : (Text.lowerChar c == letter) = true) :
    Text.isAlphanumericAscii c = true := by
  rw [← beq_iff_eq.1 h, Text.lowerChar] at hl
  split at hl
  · rename_i upper
    simp [Text.isAlphanumericAscii, upper]
  · exact hl

theorem isAlphanumericAscii_of_beq {letter : Char} (hl : Text.isAlphanumericAscii letter = true)
    (h : (c == letter) = true) : Text.isAlphanumericAscii c = true :=
  beq_iff_eq.1 h ▸ hl

theorem toNat_of_isAlphanumericAscii (h : Text.isAlphanumericAscii c = true) :
    48 ≤ c.toNat ∧ c.toNat ≤ 122 := by
  simp only [Text.isAlphanumericAscii, Text.isUpperAscii, Text.isLowerAscii, Text.isDigit,
    Bool.or_eq_true, Bool.and_eq_true, decide_eq_true_eq, Char.le_def, UInt32.le_iff_toNat_le] at h
  change 48 ≤ c.val.toNat ∧ c.val.toNat ≤ 122
  have bounds : ('A'.val.toNat = 65 ∧ 'Z'.val.toNat = 90 ∧ 'a'.val.toNat = 97) ∧
    'z'.val.toNat = 122 ∧ '0'.val.toNat = 48 ∧ '9'.val.toNat = 57 := by decide
  omega

theorem isBlank_of_isBearerChar (h : isBearerChar c = true) : Text.isBlank c = false := by
  simp only [isBearerChar, Bool.or_eq_true, List.contains_iff_mem, beq_iff_eq] at h
  rcases h with ((alphanumeric | sign) | rfl) | rfl
  · have bounds := toNat_of_isAlphanumericAscii alphanumeric
    simp [Text.isBlank]
    omega
  · simp only [List.mem_cons, List.not_mem_nil, or_false] at sign
    rcases sign with rfl | rfl | rfl | rfl | rfl | rfl | rfl <;> decide
  · decide
  · decide

/-- A part that takes one character stops wherever it is. -/
theorem separated_one (accepts : Char → Bool) : Separated (.one accepts :: p) ↔ Separated p := by
  cases p with
  | nil => exact Iff.rfl
  | cons next ps => exact ⟨And.right, And.intro True.intro⟩

theorem separated_map_one (accepts : Char → Char → Bool) (cs : List Char) :
    Separated (cs.map (fun c => .one (accepts c)) ++ p) ↔ Separated p := by
  induction cs with
  | nil => exact Iff.rfl
  | cons c cs ih => exact (separated_one _).trans ih

theorem wellFormed_bearer : WellFormed bearer where
  separated := (separated_map_one ..).2 ⟨⟨by decide, fun _ => isBlank_of_isBearerChar⟩, True.intro⟩
  begins := ⟨_, _, rfl, fun _ => isAlphanumericAscii_of_lowerChar (by decide)⟩
  ends := ⟨_, _, rfl, fun c h => by simp [isBearerChar, h]⟩

theorem wellFormed_vendorKey : WellFormed vendorKey where
  separated := (separated_map_one ..).2 True.intro
  begins := ⟨_, _, rfl, fun _ => isAlphanumericAscii_of_beq (by decide)⟩
  ends := ⟨_, _, rfl, fun c h => by simp [isKeyChar, h]⟩

theorem wellFormed_hostToken : WellFormed hostToken where
  separated := by
    simp only [hostToken, List.append_assoc]
    exact (separated_map_one ..).2 ((separated_one _).2 ((separated_map_one ..).2 True.intro))
  begins := ⟨_, _, rfl, fun _ => isAlphanumericAscii_of_beq (by decide)⟩
  ends := ⟨_, _, rfl, fun _ h => h⟩

theorem wellFormed_hostAccessToken : WellFormed hostAccessToken where
  separated := (separated_map_one ..).2 True.intro
  begins := ⟨_, _, rfl, fun _ => isAlphanumericAscii_of_beq (by decide)⟩
  ends := ⟨_, _, rfl, fun c h => by simp [h]⟩

theorem wellFormed_chatToken : WellFormed chatToken where
  separated := by
    simp only [chatToken, List.append_assoc]
    exact (separated_map_one ..).2 ((separated_one _).2 ((separated_map_one ..).2 True.intro))
  begins := ⟨_, _, rfl, fun _ => isAlphanumericAscii_of_beq (by decide)⟩
  ends := ⟨_, _, rfl, fun c h => by simp [h]⟩

theorem wellFormed_webToken : WellFormed webToken where
  separated := by
    simp only [webToken, List.append_assoc]
    refine (separated_map_one ..).2 ⟨⟨by decide, ?_⟩, ?_⟩
    · exact fun c h => beq_iff_eq.1 h ▸ rfl
    · refine ⟨True.intro, ⟨by decide, ?_⟩, True.intro, True.intro⟩
      exact fun c h => beq_iff_eq.1 h ▸ rfl
  begins := ⟨_, _, rfl, fun _ => isAlphanumericAscii_of_beq (by decide)⟩
  ends := ⟨_, _, rfl, fun c h => by simp [isKeyChar, h]⟩

theorem wellFormed_of_mem_all (h : p ∈ all) : WellFormed p := by
  simp only [all, List.mem_cons, List.not_mem_nil, or_false] at h
  rcases h with rfl | rfl | rfl | rfl | rfl | rfl
  · exact wellFormed_bearer
  · exact wellFormed_vendorKey
  · exact wellFormed_hostToken
  · exact wellFormed_hostAccessToken
  · exact wellFormed_chatToken
  · exact wellFormed_webToken

end Pattern

end Foreman.Redaction

import Foreman.Files.Path

namespace Foreman.Path

variable {a b s : List Char} {p ext : String} {name : List Char}

theorem split_ne_nil (s : List Char) : split s ≠ [] := by
  cases s with
  | nil => exact List.cons_ne_nil _ _
  | cons c r =>
    rw [split]
    split
    · exact List.cons_ne_nil _ _
    · split <;> exact List.cons_ne_nil _ _

theorem split_append_cons (a b : List Char) : split (a ++ '/' :: b) = split a ++ split b := by
  induction a with
  | nil => rfl
  | cons c r ih =>
    rw [List.cons_append, split, split, ih]
    by_cases slash : c = '/'
    · rw [if_pos slash, if_pos slash]
      rfl
    · rw [if_neg slash, if_neg slash]
      cases h : split r with
      | nil => exact (split_ne_nil r h).elim
      | cons q qs => rfl

theorem split_of_not_mem (h : '/' ∉ s) : split s = [s] := by
  induction s with
  | nil => rfl
  | cons c r ih =>
    have first : c ≠ '/' := fun same => h (same ▸ List.mem_cons_self)
    rw [split, if_neg first, ih fun rest => h (List.mem_cons_of_mem _ rest)]

/-- What stands behind the last slash. -/
def ending (s : List Char) : List Char := (s.reverse.takeWhile (· != '/')).reverse

def front (s : List Char) : List Char := (s.reverse.dropWhile (· != '/')).reverse

theorem lastPart_eq (p : String) : lastPart p = (front (tidy p.toList), ending (tidy p.toList)) :=
  rfl

theorem front_append_ending (s : List Char) : front s ++ ending s = s := by
  rw [front, ending, ← List.reverse_append, List.takeWhile_append_dropWhile, List.reverse_reverse]

theorem slash_not_mem_ending (s : List Char) : '/' ∉ ending s := by
  intro h
  have kept := List.all_takeWhile (p := (· != '/')) (l := s.reverse)
  have slash := List.all_eq_true.1 kept '/' (List.mem_reverse.1 h)
  exact absurd slash (by decide)

theorem front_cases (s : List Char) : front s = [] ∨ ∃ f, front s = f ++ ['/'] := by
  unfold front
  cases h : s.reverse.dropWhile (· != '/') with
  | nil => exact .inl rfl
  | cons c r =>
    have slash := List.head?_dropWhile_not (· != '/') s.reverse
    rw [h] at slash
    have same : c = '/' := by simpa using slash
    subst same
    exact .inr ⟨r.reverse, List.reverse_cons⟩

def kept (s : List Char) : List String :=
  ((split s).map String.ofList).filter fun s => s ≠ "" && s ≠ "."

theorem kept_append_cons (a b : List Char) : kept (a ++ '/' :: b) = kept a ++ kept b := by
  simp only [kept, split_append_cons, List.map_append, List.filter_append]

theorem kept_nil : kept [] = [] := rfl

theorem kept_front_append (s b : List Char) : kept (front s ++ b) = kept (front s) ++ kept b := by
  rcases front_cases s with h | ⟨f, h⟩
  · rw [h, kept_nil, List.nil_append, List.nil_append]
  · rw [h, List.append_assoc, List.singleton_append, kept_append_cons, kept_append_cons, kept_nil,
      List.append_nil]

theorem kept_of_not_mem (h : '/' ∉ s) (ne : s ≠ []) (point : s ≠ ['.']) :
    kept s = [String.ofList s] := by
  have ne' : String.ofList s ≠ "" := by
    intro same
    exact ne (by simpa using congrArg String.toList same)
  have point' : String.ofList s ≠ "." := by
    intro same
    exact point (by simpa using congrArg String.toList same)
  simp [kept, split_of_not_mem h, ne', point']

theorem getLast?_split_front_append (s : List Char) (h : '/' ∉ b) :
    (split (front s ++ b)).getLast? = some b := by
  rcases front_cases s with hf | ⟨f, hf⟩
  · rw [hf, List.nil_append, split_of_not_mem h]
    rfl
  · rw [hf, List.append_assoc, List.singleton_append, split_append_cons, split_of_not_mem h]
    simp

theorem getLast?_split (s : List Char) : (split s).getLast? = some (ending s) := by
  have last := getLast?_split_front_append s (slash_not_mem_ending s)
  rwa [front_append_ending] at last

theorem kept_dropTail (n : Nat) (s : List Char) : kept (dropTail n s).reverse = kept s.reverse := by
  fun_induction dropTail n s with
  | case1 s => rfl
  | case2 n r empty =>
    rw [List.isEmpty_iff.1 empty]
  | case3 n r full ih =>
    rw [ih, List.reverse_cons, kept_append_cons, kept_nil, List.append_nil]
  | case4 n r empty =>
    rw [List.isEmpty_iff.1 empty]
    rfl
  | case5 n r full ih =>
    rw [ih, List.reverse_cons, List.reverse_cons, List.append_assoc, List.singleton_append,
      kept_append_cons]
    exact (List.append_nil _).symm
  | case6 => rfl

theorem kept_tidy (s : List Char) : kept (tidy s) = kept s := by
  rw [tidy, kept_dropTail, List.reverse_reverse]

/-- A path that ends neither in a slash nor in a point is tidy. -/
theorem tidy_eq_self (ne : ending s ≠ []) (point : ending s ≠ ['.']) : tidy s = s := by
  have same : dropTail s.length s.reverse = s.reverse := by
    unfold ending at ne point
    generalize s.length = n
    generalize s.reverse = r at ne point ⊢
    fun_cases dropTail n r with
    | case1 | case6 => rfl
    | case2 | case3 => exact (ne rfl).elim
    | case4 | case5 => exact (point rfl).elim
  rw [tidy, same, List.reverse_reverse]

/-- Whether a path asks for a directory by a slash or a point at its end. -/
def asksDirectory (s : List Char) : Bool :=
  1 < (split s).length && (ending s = [] || ending s = ['.'])

theorem steps_eq (p : String) :
    steps p = if asksDirectory p.toList then kept p.toList ++ ["."] else kept p.toList := by
  have last (w : List Char) :
      ((split p.toList).map String.ofList).getLast? = some (String.ofList w) ↔
      ending p.toList = w := by
    simp [List.getLast?_map, getLast?_split, ← String.toList_inj]
  have none : ((split p.toList).map String.ofList).getLast? = some "" ↔ ending p.toList = [] :=
    last []
  have point : ((split p.toList).map String.ofList).getLast? = some "." ↔
      ending p.toList = ['.'] := last ['.']
  simp only [steps, asksDirectory, none, point, List.length_map]
  rfl

theorem fileName?_eq_some :
    fileName? p = some name ↔
      ending (tidy p.toList) = name ∧ name ≠ [] ∧ name ≠ ['.'] ∧ name ≠ ['.', '.'] := by
  rw [fileName?, lastPart_eq]
  generalize ending (tidy p.toList) = w
  split
  · rename_i same
    simp only [reduceCtorEq, false_iff]
    rintro ⟨rfl, ne, -⟩
    exact ne same
  · rename_i same
    simp only [reduceCtorEq, false_iff]
    rintro ⟨rfl, -, ne, -⟩
    exact ne same
  · rename_i same
    simp only [reduceCtorEq, false_iff]
    rintro ⟨rfl, -, -, ne⟩
    exact ne same
  · rename_i ne point points
    constructor
    · rintro ⟨⟩
      exact ⟨rfl, ne, point, points⟩
    · rintro ⟨rfl, -⟩
      rfl

/-- A path that ends in a name goes on to it from where the front leads. -/
theorem steps_of_fileName? (named : fileName? p = some name) :
    ∃ tail, (tail = [] ∨ tail = ["."]) ∧
      steps p = kept (front (tidy p.toList)) ++ String.ofList name :: tail := by
  obtain ⟨rfl, ne, point, -⟩ := fileName?_eq_some.1 named
  have whole : kept p.toList =
      kept (front (tidy p.toList)) ++ [String.ofList (ending (tidy p.toList))] := by
    calc kept p.toList
      _ = kept (front (tidy p.toList) ++ ending (tidy p.toList)) := by
        rw [front_append_ending, kept_tidy]
      _ = _ := by
        rw [kept_front_append, kept_of_not_mem (slash_not_mem_ending _) ne point]
  rw [steps_eq, whole]
  split
  · exact ⟨["."], .inr rfl, by rw [List.append_assoc]; rfl⟩
  · exact ⟨[], .inl rfl, rfl⟩

theorem steps_of_fileName?_eq_none (unnamed : fileName? p = none) :
    steps p = [] ∨ ∃ before step, steps p = before ++ [step] ∧ (step = "." ∨ step = "..") := by
  rw [steps_eq]
  split
  · exact .inr ⟨_, ".", rfl, .inl rfl⟩
  · rename_i plain
    by_cases slack : ending p.toList = [] ∨ ending p.toList = ['.']
    · -- Such a path has no slash, and so no component that leads somewhere.
      left
      have single : ¬ 1 < (split p.toList).length := by
        intro long
        apply plain
        simpa [asksDirectory, long] using slack
      have last := getLast?_split p.toList
      match parts : split p.toList with
      | [] => exact (split_ne_nil _ parts).elim
      | [q] =>
        have same : q = ending p.toList := by
          rw [parts] at last
          exact Option.some.inj last
        rw [kept, parts, same]
        rcases slack with h | h <;> rw [h] <;> rfl
      | q :: r :: rest =>
        rw [parts] at single
        exact (single (by simp)).elim
    · obtain ⟨ne, point⟩ := not_or.1 slack
      have tidy := tidy_eq_self ne point
      have points : ending p.toList = ['.', '.'] := by
        apply Decidable.byContradiction
        intro other
        have named : fileName? p = some (ending p.toList) :=
          fileName?_eq_some.2 ⟨by rw [tidy], ne, point, other⟩
        rw [unnamed] at named
        cases named
      refine .inr ⟨kept (front p.toList), "..", ?_, .inr rfl⟩
      have whole := kept_front_append p.toList (ending p.toList)
      rw [front_append_ending, points] at whole
      exact whole

theorem withExtension_of_fileName? (named : fileName? p = some name) (ext : String) :
    (withExtension p ext).toList = front (tidy p.toList) ++ (stem name ++ '.' :: ext.toList) := by
  rw [withExtension, named]
  simp [lastPart_eq]

theorem slash_not_mem_stem (h : '/' ∉ name) : '/' ∉ stem name := by
  unfold stem
  split
  · exact h
  · exact h
  · rename_i tail _ _ found
    intro slash
    apply h
    apply List.mem_reverse.1
    apply (List.dropWhile_suffix (· != '.')).subset
    rw [found]
    exact List.mem_cons_of_mem _ (List.mem_reverse.1 slash)

theorem stem_ne_nil (ne : name ≠ []) : stem name ≠ [] := by
  unfold stem
  split
  · exact ne
  · exact ne
  · rename_i point front only found
    intro none
    have head := List.head?_dropWhile_not (· != '.') name.reverse
    rw [List.reverse_eq_nil_iff] at none
    subst none
    rw [found] at head
    have same : point = '.' := by simpa using head
    subst same
    exact only rfl rfl

/-- An extension with slashes in it would be more than one component, and one without a point might
be the one that is there. -/
structure IsDouble (ext : String) : Prop where
  plain : '/' ∉ ext.toList
  dotted : '.' ∈ ext.toList

theorem withPoints_ne (named : fileName? p = some name) (double : IsDouble ext) :
    stem name ++ '.' :: ext.toList ≠ ['.'] ∧ stem name ++ '.' :: ext.toList ≠ ['.', '.'] := by
  obtain ⟨-, ne, -⟩ := fileName?_eq_some.1 named
  have first := List.length_pos_iff.2 (stem_ne_nil ne)
  have last := List.length_pos_of_mem double.dotted
  constructor <;>
  · intro same
    have short := congrArg List.length same
    simp only [List.length_append, List.length_cons, List.length_nil] at short
    omega

theorem steps_withExtension (named : fileName? p = some name) (double : IsDouble ext) :
    steps (withExtension p ext) =
      kept (front (tidy p.toList)) ++ [String.ofList (stem name ++ '.' :: ext.toList)] := by
  have plain : '/' ∉ stem name ++ '.' :: ext.toList := by
    obtain ⟨rfl, -⟩ := fileName?_eq_some.1 named
    simp [slash_not_mem_stem (slash_not_mem_ending _), double.plain]
  have ne : stem name ++ '.' :: ext.toList ≠ [] := by simp
  have point := (withPoints_ne named double).1
  have chars := withExtension_of_fileName? named ext
  have last : ending (withExtension p ext).toList = stem name ++ '.' :: ext.toList := by
    have last := getLast?_split (withExtension p ext).toList
    rw [chars, getLast?_split_front_append _ plain] at last
    rw [chars]
    exact (Option.some.inj last).symm
  have ends : asksDirectory (withExtension p ext).toList = false := by
    simp [asksDirectory, last, point]
  rw [steps_eq, ends, if_neg nofun, chars, kept_front_append, kept_of_not_mem plain ne point]

theorem dropTail_suffix (n : Nat) (s : List Char) : dropTail n s <:+ s := by
  fun_induction dropTail n s with
  | case1 | case6 => exact List.suffix_rfl
  | case2 n r empty =>
    obtain rfl := List.isEmpty_iff.1 empty
    exact List.suffix_rfl
  | case3 n r full ih => exact ih.trans (List.suffix_cons _ _)
  | case4 n r empty =>
    obtain rfl := List.isEmpty_iff.1 empty
    exact List.suffix_cons _ _
  | case5 n r full ih => exact ih.trans ((List.suffix_cons _ _).trans (List.suffix_cons _ _))

theorem tidy_prefix (s : List Char) : tidy s <+: s := by
  have suffix := dropTail_suffix s.length s.reverse
  rwa [← List.reverse_prefix, List.reverse_reverse] at suffix

theorem isAbsolute_withExtension (named : fileName? p = some name) (double : IsDouble ext) :
    isAbsolute (withExtension p ext) = isAbsolute p := by
  have chars := withExtension_of_fileName? named ext
  obtain ⟨rfl, ne, -⟩ := fileName?_eq_some.1 named
  obtain ⟨junk, whole⟩ := tidy_prefix p.toList
  have slash := slash_not_mem_ending (tidy p.toList)
  have parts := front_append_ending (tidy p.toList)
  have head : p.toList.head? =
      (front (tidy p.toList) ++ ending (tidy p.toList) ++ junk).head? := by rw [parts, whole]
  rw [isAbsolute, isAbsolute, head, chars, decide_eq_decide]
  clear head chars whole named
  generalize tidy p.toList = s at ne slash parts
  generalize ending s = w at ne slash parts
  have other := slash_not_mem_stem slash
  cases front s with
  | cons c f => rfl
  | nil =>
    -- Neither path has a slash, so neither is absolute.
    have relative {s : List Char} (h : '/' ∉ s) : ¬ s.head? = some '/' :=
      fun same => h (List.mem_of_head? same)
    have plain : '/' ∉ stem w ++ '.' :: ext.toList := by simp [other, double.plain]
    have same : (w ++ junk).head? = w.head? := by
      cases w with
      | nil => exact (ne rfl).elim
      | cons c w => rfl
    rw [List.nil_append, List.nil_append, same]
    exact iff_of_false (relative plain) (relative slash)

/-- The new extension is not the one that is there. -/
theorem stem_append_ne (double : IsDouble ext) (name : List Char) :
    stem name ++ '.' :: ext.toList ≠ name := by
  unfold stem
  split
  · simp
  · simp
  · rename_i point front _ found
    intro same
    have behind : '.' ∉ name.reverse.takeWhile (· != '.') := by
      intro h
      have kept := List.all_takeWhile (p := (· != '.')) (l := name.reverse)
      exact absurd (List.all_eq_true.1 kept '.' h) (by decide)
    have whole := List.takeWhile_append_dropWhile (p := (· != '.')) (l := name.reverse)
    rw [found, ← List.reverse_inj, List.reverse_reverse, List.reverse_append, List.reverse_cons,
      List.append_assoc, List.singleton_append] at whole
    have tails := List.append_cancel_left (same.trans whole.symm)
    apply behind
    rw [← List.mem_reverse, ← (List.cons.inj tails).2]
    exact double.dotted

end Foreman.Path

import Foreman.Proofs.Files.Path
import Foreman.Proofs.Files.Tree

namespace Foreman.FileTree

variable {t t' : FileTree} {place other : List String} {p ext : String}

structure Rooted (t : FileTree) : Prop where
  start : t.node? t.workdir = some .directory
  above : ∀ place, t.node? place = some .directory → t.node? place.dropLast = some .directory

theorem walk_append_eq_ok :
    t.walk place (before ++ after) = .ok other ↔
      ∃ mid, t.walk place before = .ok mid ∧ t.walk mid after = .ok other := by
  induction before generalizing place with
  | nil =>
    constructor
    · intro h
      exact ⟨place, rfl, h⟩
    · rintro ⟨mid, same, h⟩
      cases same
      exact h
  | cons step steps ih =>
    rw [List.cons_append, walk_cons_eq_ok, ih]
    constructor
    · rintro ⟨there, short, mid, first, second⟩
      exact ⟨mid, walk_cons_eq_ok.2 ⟨there, short, first⟩, second⟩
    · rintro ⟨mid, first, second⟩
      obtain ⟨there, short, first⟩ := walk_cons_eq_ok.1 first
      exact ⟨there, short, mid, first, second⟩

theorem walk_singleton_eq_ok :
    t.walk place [step] = .ok other ↔
      t.node? place = some .directory ∧ ¬ step.utf8ByteSize > 255 ∧
        other = if step = "." then place else if step = ".." then place.dropLast
          else place ++ [step] := by
  rw [walk_cons_eq_ok, walk]
  simp only [Except.ok.injEq, eq_comm]

/-- A step to a name goes below the directory; a turn to where one stands, behind it, changes
nothing. -/
theorem eq_of_walk_name (name : step ≠ "." ∧ step ≠ "..") (tail : rest = [] ∨ rest = ["."])
    (leads : t.walk place (step :: rest) = .ok other) : other = place ++ [step] := by
  obtain ⟨-, -, leads⟩ := walk_cons_eq_ok.1 leads
  rw [if_neg name.1, if_neg name.2] at leads
  rcases tail with rfl | rfl
  · cases leads
    rfl
  · obtain ⟨-, -, rfl⟩ := walk_singleton_eq_ok.1 leads
    rfl

theorem locate_eq_ok :
    t.locate p = .ok place ↔
      '\x00' ∉ p.toList ∧ p ≠ "" ∧
        t.walk (if Path.isAbsolute p then [] else t.workdir) (Path.steps p) = .ok place := by
  unfold locate
  by_cases zero : p.toList.contains '\x00' = true
  · rw [if_pos zero]
    rw [List.contains_iff_mem] at zero
    simp [zero]
  · rw [if_neg zero]
    rw [List.contains_iff_mem] at zero
    by_cases empty : p = ""
    · simp [empty]
    · simp [zero, empty]

namespace Rooted

theorem outset (h : t.Rooted) (p : String) :
    t.node? (if Path.isAbsolute p then [] else t.workdir) = some .directory := by
  split
  · rfl
  · exact h.start

/-- A walk from a directory ends at one or in one. -/
theorem walk_above (h : t.Rooted) (there : t.node? place = some .directory)
    (leads : t.walk place steps = .ok other) : t.node? other.dropLast = some .directory := by
  rcases List.eq_nil_or_concat steps with rfl | ⟨before, step, rfl⟩
  · cases leads
    exact h.above place there
  · rw [List.concat_eq_append] at leads
    obtain ⟨mid, -, last⟩ := walk_append_eq_ok.1 leads
    obtain ⟨dir, -, rfl⟩ := walk_singleton_eq_ok.1 last
    split
    · exact h.above mid dir
    · split
      · exact h.above _ (h.above mid dir)
      · rw [List.dropLast_concat]
        exact dir

theorem locate_above (h : t.Rooted) (leads : t.locate p = .ok place) :
    t.node? place.dropLast = some .directory :=
  h.walk_above (h.outset p) (locate_eq_ok.1 leads).2.2

/-- A path that does not end in a name leads to a directory, if it leads anywhere. -/
theorem directory_of_unnamed (h : t.Rooted) (unnamed : Path.fileName? p = none)
    (leads : t.locate p = .ok place) : t.node? place = some .directory := by
  obtain ⟨-, -, leads⟩ := locate_eq_ok.1 leads
  rcases Path.steps_of_fileName?_eq_none unnamed with none | ⟨before, step, steps, turn⟩
  · rw [none] at leads
    cases leads
    exact h.outset p
  · rw [steps] at leads
    obtain ⟨mid, -, last⟩ := walk_append_eq_ok.1 leads
    obtain ⟨dir, -, rfl⟩ := walk_singleton_eq_ok.1 last
    rcases turn with rfl | rfl
    · exact dir
    · exact h.above mid dir

/-- What a path with another extension leads to is not what the path leads to. -/
theorem place_ne_of_withExtension (h : t.Rooted) (double : Path.IsDouble ext)
    (here : t.locate p = .ok place) (free : t.Free place)
    (beside : t.locate (Path.withExtension p ext) = .ok other) : other ≠ place := by
  cases named : Path.fileName? p with
  | none => exact (free (h.directory_of_unnamed named here)).elim
  | some name =>
    obtain ⟨tail, noTurn, steps⟩ := Path.steps_of_fileName? named
    obtain ⟨-, -, here⟩ := locate_eq_ok.1 here
    obtain ⟨-, -, beside⟩ := locate_eq_ok.1 beside
    rw [Path.isAbsolute_withExtension named double, Path.steps_withExtension named double] at beside
    rw [steps] at here
    obtain ⟨d, before, here⟩ := walk_append_eq_ok.1 here
    obtain ⟨d', before', beside⟩ := walk_append_eq_ok.1 beside
    have same : d' = d := Except.ok.inj (before'.symm.trans before)
    obtain ⟨-, -, point, points⟩ := Path.fileName?_eq_some.1 named
    obtain ⟨point', points'⟩ := Path.withPoints_ne named double
    have old : String.ofList name ≠ "." ∧ String.ofList name ≠ ".." := by
      simp [← String.toList_inj, point, points]
    have new : String.ofList (Path.stem name ++ '.' :: ext.toList) ≠ "." ∧
        String.ofList (Path.stem name ++ '.' :: ext.toList) ≠ ".." := by
      simp [← String.toList_inj, point', points']
    rw [eq_of_walk_name old noTurn here, eq_of_walk_name new (.inl rfl) beside, same]
    intro h
    have names := List.append_cancel_left h
    apply Path.stem_append_ne double name
    simpa [← String.toList_inj] using names

end Rooted

end Foreman.FileTree

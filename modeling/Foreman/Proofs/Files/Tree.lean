import Foreman.Files.Tree

namespace Foreman.FileTree

variable {t t' t'' : FileTree} {place other origin : List String} {p : String}

theorem lookup_filter_ne (place other : List String) (entries : List (List String × α)) :
    (entries.filter (·.1 ≠ place)).lookup other =
      if other = place then none else entries.lookup other := by
  induction entries with
  | nil => simp
  | cons e entries ih =>
    obtain ⟨key, n⟩ := e
    rw [List.filter_cons, List.lookup_cons]
    by_cases dropped : key = place
    · rw [if_neg (by simpa using dropped), ih]
      by_cases same : other = place
      · simp [same]
      · have ne : other ≠ key := fun h => same (h.trans dropped)
        simp [same, beq_false_of_ne ne]
    · rw [if_pos (by simpa using dropped), List.lookup_cons, ih]
      by_cases found : other = key
      · have ne : other ≠ place := fun h => dropped (found.symm.trans h)
        simp [found, dropped]
      · simp [beq_false_of_ne found]

theorem node?_put (ne : place ≠ []) (n : FileNode) (other : List String) :
    (t.put place n).node? other = if other = place then some n else t.node? other := by
  cases other with
  | nil => rw [if_neg ne.symm]; rfl
  | cons step steps =>
    simp only [node?, put, List.isEmpty_cons, List.lookup_append, lookup_filter_ne]
    by_cases same : step :: steps = place
    · simp [same]
    · simp [same, beq_false_of_ne same, List.lookup_cons]

theorem node?_remove (ne : place ≠ []) (other : List String) :
    (t.remove place).node? other = if other = place then none else t.node? other := by
  cases other with
  | nil => rw [if_neg ne.symm]; rfl
  | cons step steps =>
    simp only [node?, remove, List.isEmpty_cons, lookup_filter_ne]
    rfl

/-- A place where no directory stands. -/
def Free (t : FileTree) (place : List String) : Prop := t.node? place ≠ some .directory

theorem Free.ne_nil (h : t.Free place) : place ≠ [] := by
  rintro rfl
  exact h rfl

/-- Every directory of the first tree is one of the second. -/
structure Keeps (t t' : FileTree) : Prop where
  workdir : t'.workdir = t.workdir
  directories : ∀ place, t.node? place = some .directory → t'.node? place = some .directory

theorem Keeps.refl (t : FileTree) : Keeps t t := ⟨rfl, fun _ h => h⟩

theorem Keeps.trans (h : Keeps t t') (h' : Keeps t' t'') : Keeps t t'' where
  workdir := h'.workdir.trans h.workdir
  directories := fun place there => h'.directories place (h.directories place there)

theorem Free.keeps_put (h : t.Free place) (n : FileNode) : Keeps t (t.put place n) where
  workdir := rfl
  directories := by
    intro other there
    have ne : other ≠ place := by
      rintro rfl
      exact h there
    rw [node?_put h.ne_nil, if_neg ne, there]

theorem Free.put_keeps (h : t.Free place) (content : ByteArray) :
    Keeps (t.put place (.file content)) t where
  workdir := rfl
  directories := by
    intro other there
    rw [node?_put h.ne_nil] at there
    split at there
    · cases there
    · exact there

theorem Free.keeps_remove (h : t.Free place) : Keeps t (t.remove place) where
  workdir := rfl
  directories := by
    intro other there
    have ne : other ≠ place := by
      rintro rfl
      exact h there
    rw [node?_remove h.ne_nil, if_neg ne, there]

theorem Free.put (h : t.Free place) (content : ByteArray) :
    (t.put place (.file content)).Free other ↔ t.Free other := by
  unfold Free
  rw [node?_put h.ne_nil]
  split
  · rename_i same
    subst same
    exact ⟨fun _ => h, fun _ => nofun⟩
  · rfl

theorem Free.remove (h : t.Free place) : (t.remove place).Free other ↔ t.Free other := by
  unfold Free
  rw [node?_remove h.ne_nil]
  split
  · rename_i same
    subst same
    exact ⟨fun _ => h, fun _ => nofun⟩
  · rfl

theorem walk_cons_eq_ok :
    t.walk place (step :: steps) = .ok other ↔
      t.node? place = some .directory ∧ ¬ step.utf8ByteSize > 255 ∧
        t.walk (if step = "." then place else if step = ".." then place.dropLast
          else place ++ [step]) steps = .ok other := by
  rw [walk]
  cases there : t.node? place with
  | none => exact ⟨nofun, nofun⟩
  | some n =>
    cases n with
    | file content => exact ⟨nofun, nofun⟩
    | directory =>
      by_cases long : step.utf8ByteSize > 255
      · simp only [long, if_true, not_true_eq_false, false_and, and_false, iff_false]
        exact nofun
      · simp only [long, if_false, not_false_eq_true, true_and]

theorem Keeps.walk (h : Keeps t t') (leads : t.walk place steps = .ok other) :
    t'.walk place steps = .ok other := by
  induction steps generalizing place with
  | nil => exact leads
  | cons step steps ih =>
    obtain ⟨there, short, leads⟩ := walk_cons_eq_ok.1 leads
    exact walk_cons_eq_ok.2 ⟨h.directories place there, short, ih leads⟩

/-- A path leads where it led. -/
theorem Keeps.locate (h : Keeps t t') (leads : t.locate p = .ok place) :
    t'.locate p = .ok place := by
  unfold FileTree.locate at leads ⊢
  rw [h.workdir]
  split at leads
  · cases leads
  · rename_i clean
    rw [if_neg clean]
    split at leads
    · cases leads
    · rename_i named
      rw [if_neg named]
      exact h.walk leads

theorem stat_eq_ok :
    t.stat p = .ok n ↔ ∃ place, t.locate p = .ok place ∧ t.node? place = some n := by
  unfold stat
  cases located : t.locate p with
  | error e => simp [bind, Except.bind]
  | ok place => cases there : t.node? place <;> simp [bind, Except.bind, pure, Except.pure, there]

theorem exists?_of_stat (h : t.stat p = .ok n) : t.exists? p = .ok true := by
  rw [exists?, h]

theorem isDirectory_iff : t.isDirectory p = true ↔ t.stat p = .ok .directory := by
  unfold isDirectory
  split
  · rename_i there
    simp [there]
  · rename_i other
    simpa using other

theorem Keeps.isDirectory (h : Keeps t t') (there : t.isDirectory p = true) :
    t'.isDirectory p = true := by
  obtain ⟨place, leads, node⟩ := stat_eq_ok.1 (isDirectory_iff.1 there)
  exact isDirectory_iff.2 (stat_eq_ok.2 ⟨place, h.locate leads, h.directories place node⟩)

theorem readText_eq_ok : t.readText p = .ok text ↔ t.stat p = .ok (.file text.toUTF8) := by
  unfold readText read
  cases there : t.stat p with
  | error e => simp [bind, Except.bind]
  | ok n =>
    cases n with
    | directory => simp [bind, Except.bind, throw, throwThe, MonadExceptOf.throw]
    | file content =>
      simp only [bind, Except.bind, pure, Except.pure, String.fromUTF8?]
      by_cases valid : content.IsValidUTF8
      · rw [dif_pos valid]
        constructor
        · rintro ⟨⟩
          rfl
        · rintro ⟨⟩
          rfl
      · rw [dif_neg valid]
        constructor
        · exact nofun
        · rintro ⟨⟩
          exact (valid text.isValidUTF8).elim

/-- A path that leads to a file, or to where one may be made. -/
def Writable (t : FileTree) (p : String) : Prop := ∃ place, t.locate p = .ok place ∧ t.Free place

theorem write_eq_ok :
    t.write p content = .ok t' ↔
      ∃ place, t.locate p = .ok place ∧ t.Free place ∧ t' = t.put place (.file content) := by
  unfold write Free
  cases leads : t.locate p with
  | error e => simp [bind, Except.bind]
  | ok place =>
    cases there : t.node? place with
    | none => simp [bind, Except.bind, pure, Except.pure, there, eq_comm]
    | some n =>
      cases n <;>
        simp [bind, Except.bind, pure, Except.pure, throw, throwThe, MonadExceptOf.throw, there,
          eq_comm]

theorem rename_eq_ok (leads : t.locate source = .ok origin)
    (file : t.node? origin = some (.file content)) :
    t.rename source target = .ok t' ↔
      ∃ place, t.locate target = .ok place ∧ t.Free place ∧
        t' = (t.remove origin).put place (.file content) := by
  unfold rename Free
  cases located : t.locate target with
  | error e => simp [bind, Except.bind, leads]
  | ok place =>
    cases there : t.node? place with
    | none => simp [bind, Except.bind, pure, Except.pure, leads, file, there, eq_comm]
    | some n =>
      cases n <;>
        simp [bind, Except.bind, pure, Except.pure, throw, throwThe, MonadExceptOf.throw, leads,
          file, there, eq_comm]

theorem makeDirectory_eq_ok :
    t.makeDirectory p = .ok t' ↔
      ∃ place, t.locate p = .ok place ∧ t.node? place = none ∧ t' = t.put place .directory := by
  unfold makeDirectory
  cases leads : t.locate p with
  | error e => simp [bind, Except.bind]
  | ok place =>
    cases there : t.node? place <;>
      simp [bind, Except.bind, pure, Except.pure, throw, throwThe, MonadExceptOf.throw, there,
        eq_comm]

theorem makeDirectory_keeps (h : t.makeDirectory p = .ok t') :
    Keeps t t' ∧ t'.isDirectory p = true := by
  obtain ⟨place, leads, none, rfl⟩ := makeDirectory_eq_ok.1 h
  have free : t.Free place := by
    rw [Free, none]
    nofun
  have keeps := free.keeps_put .directory
  have made : (t.put place .directory).node? place = some .directory := by
    rw [node?_put free.ne_nil, if_pos rfl]
  exact ⟨keeps, isDirectory_iff.2 (stat_eq_ok.2 ⟨place, keeps.locate leads, made⟩)⟩

/-- Directories are made and none is lost, and the last one is there. -/
theorem makeDirectories_keeps (h : t.makeDirectories p n = .ok t') :
    Keeps t t' ∧ (p ≠ "" → t'.isDirectory p = true) := by
  induction n generalizing t t' p with
  | zero => cases h
  | succ n ih =>
    rw [makeDirectories] at h
    split at h
    · rename_i empty
      cases h
      exact ⟨.refl t, fun ne => (ne empty).elim⟩
    · split at h
      · rename_i made
        cases h
        exact (makeDirectory_keeps made).imp_right fun there _ => there
      · split at h
        · cases h
        · -- A directory is missing: those above are made first, in a tree of their own.
          rename_i parent _
          cases above : t.makeDirectories parent n with
          | error e =>
            rw [above] at h
            cases h
          | ok t₁ =>
            have first := (ih above).1
            simp only [above, bind, Except.bind] at h
            split at h
            · rename_i made
              cases h
              obtain ⟨second, there⟩ := makeDirectory_keeps made
              exact ⟨first.trans second, fun _ => there⟩
            · split at h
              · rename_i there
                cases h
                exact ⟨first, fun _ => there⟩
              · cases h
      · split at h
        · rename_i there
          cases h
          exact ⟨.refl t, fun _ => there⟩
        · cases h

/-- Nothing is made where the directory is there. -/
theorem makeDirectories_of_isDirectory (ne : p ≠ "") (there : t.isDirectory p = true) (n : Nat) :
    t.makeDirectories p (n + 1) = .ok t := by
  obtain ⟨place, leads, node⟩ := stat_eq_ok.1 (isDirectory_iff.1 there)
  have refused : t.makeDirectory p = .error .alreadyExists := by
    simp [makeDirectory, leads, node, bind, Except.bind, throw, throwThe, MonadExceptOf.throw]
  rw [makeDirectories, if_neg ne, refused]
  exact if_pos there

end Foreman.FileTree

import Foreman.Files.Replacement
import Foreman.Proofs.Files.Tree

namespace Foreman

theorem FileProgram.run_bind (p : FileProgram α) (f : α → FileProgram β) (t : FileTree) :
    (p >>= f).run t = (f (p.run t).1).run (p.run t).2 := by
  show (p.bind f).run t = _
  induction p generalizing t with
  | done a => rfl
  | exists? path next ih => exact ih _ _
  | readText path next ih => exact ih _ _
  | makeDirectories path next ih => exact ih _ _
  | write path content next ih => exact ih _ _
  | rename source target next ih => exact ih _ _

namespace Replaceable

open FileTree (Keeps Free Writable)

variable {f : Replaceable} {t t' t₁ t₂ : FileTree} {content : String}

/-- The tree in which the directory of the file is there. -/
def prepared? (f : Replaceable) (t : FileTree) : Option FileTree :=
  match Path.parent? f.path with
  | none => none
  | some "" => some t
  | some parent => (t.makeDirectories parent (FileProgram.depth parent)).toOption

/-- What is needed to put content in place, once the directory is there. -/
structure Ready (f : Replaceable) (t : FileTree) : Prop where
  temporary : t.Writable f.temporaryPath
  target : t.Writable f.path

/-- The directory need not be made twice. -/
theorem prepared?_again (h : f.prepared? t = some t₁) (keeps : Keeps t₁ t₂) :
    f.prepared? t₂ = some t₂ := by
  unfold prepared? at h ⊢
  split at h
  · cases h
  · rfl
  · rename_i parent ne _
    cases made : t.makeDirectories parent (FileProgram.depth parent) with
    | error e =>
      rw [made] at h
      cases h
    | ok t₁ =>
      rw [made] at h
      cases h
      have there := keeps.isDirectory ((FileTree.makeDirectories_keeps made).2 ne)
      have kept := FileTree.makeDirectories_of_isDirectory ne there parent.length
      exact congrArg Except.toOption kept

theorem run_swap_eq_ok :
    (f.swap content).run t = (.ok (), t') ↔
      ∃ t₁, t.write f.temporaryPath content.toUTF8 = .ok t₁ ∧
        t₁.rename f.temporaryPath f.path = .ok t' := by
  simp only [swap, FileProgram.run]
  cases written : t.write f.temporaryPath content.toUTF8 with
  | error e => simp [FileProgram.settle, Fault.expect, FileProgram.run]
  | ok t₁ =>
    simp only [FileProgram.settle, Fault.expect, FileProgram.run]
    cases moved : t₁.rename f.temporaryPath f.path with
    | error e => simp [moved]
    | ok t₂ => simp [moved]

theorem run_replace_eq_ok :
    (f.replace content).run t = (.ok (), t') ↔
      ∃ t₁, f.prepared? t = some t₁ ∧ (f.swap content).run t₁ = (.ok (), t') := by
  unfold replace prepared?
  generalize Path.parent? f.path = directory
  split
  · simp [FileProgram.run]
  · simp
  · rename_i parent ne
    simp only [FileProgram.run]
    cases t.makeDirectories parent (FileProgram.depth parent) with
    | error e => simp [FileProgram.settle, Fault.expect, FileProgram.run, Except.toOption]
    | ok t₁ => simp [FileProgram.settle, Fault.expect, Except.toOption]

/-- Content is put in place wherever that is possible, and can then be put there again. -/
theorem Ready.run_swap (h : f.Ready t) (content : String) :
    ∃ t', (f.swap content).run t = (.ok (), t') ∧ t'.readText f.path = .ok content ∧
      Keeps t t' ∧ f.Ready t' := by
  obtain ⟨⟨origin, source, freeOrigin⟩, ⟨place, target, freePlace⟩⟩ := h
  -- The tree with the new content beside the file, and the one with the content in place.
  generalize ht₁ : t.put origin (.file content.toUTF8) = t₁
  generalize ht₂ : (t₁.remove origin).put place (.file content.toUTF8) = t₂
  have free₁ {other : List String} : t₁.Free other ↔ t.Free other := by
    rw [← ht₁]
    exact freeOrigin.put content.toUTF8
  have freeRemoved {other : List String} : (t₁.remove origin).Free other ↔ t.Free other :=
    (free₁.2 freeOrigin).remove.trans free₁
  have free₂ {other : List String} : t₂.Free other ↔ t.Free other := by
    rw [← ht₂]
    exact ((freeRemoved.2 freePlace).put content.toUTF8).trans freeRemoved
  have keeps₁ : Keeps t t₁ := ht₁ ▸ freeOrigin.keeps_put _
  have keeps₂ : Keeps t₁ t₂ := by
    rw [← ht₂]
    exact (free₁.2 freeOrigin).keeps_remove.trans ((freeRemoved.2 freePlace).keeps_put _)
  have keeps := keeps₁.trans keeps₂
  have beside : t₁.node? origin = some (.file content.toUTF8) := by
    rw [← ht₁, FileTree.node?_put freeOrigin.ne_nil, if_pos rfl]
  have inPlace : t₂.node? place = some (.file content.toUTF8) := by
    rw [← ht₂, FileTree.node?_put freePlace.ne_nil, if_pos rfl]
  refine ⟨t₂, run_swap_eq_ok.2 ⟨t₁, ?_, ?_⟩, ?_, keeps, ⟨?_, ?_⟩⟩
  · exact FileTree.write_eq_ok.2 ⟨origin, source, freeOrigin, ht₁.symm⟩
  · exact (FileTree.rename_eq_ok (keeps₁.locate source) beside).2
      ⟨place, keeps₁.locate target, free₁.2 freePlace, ht₂.symm⟩
  · exact FileTree.readText_eq_ok.2 (FileTree.stat_eq_ok.2 ⟨place, keeps.locate target, inPlace⟩)
  · exact ⟨origin, keeps.locate source, free₂.2 freeOrigin⟩
  · exact ⟨place, keeps.locate target, free₂.2 freePlace⟩

theorem ready_of_run_swap (h : (f.swap content).run t = (.ok (), t')) : f.Ready t := by
  obtain ⟨t₁, written, moved⟩ := run_swap_eq_ok.1 h
  obtain ⟨origin, source, freeOrigin, rfl⟩ := FileTree.write_eq_ok.1 written
  have keeps := freeOrigin.keeps_put (.file content.toUTF8)
  have beside :
      (t.put origin (.file content.toUTF8)).node? origin = some (.file content.toUTF8) := by
    rw [FileTree.node?_put freeOrigin.ne_nil, if_pos rfl]
  obtain ⟨place, target, freePlace, -⟩ :=
    (FileTree.rename_eq_ok (keeps.locate source) beside).1 moved
  exact ⟨⟨origin, source, freeOrigin⟩,
    ⟨place, (freeOrigin.put_keeps _).locate target, (freeOrigin.put _).1 freePlace⟩⟩

/-- Some content can be put in place of what the file holds. -/
def Usable (f : Replaceable) (t : FileTree) : Prop :=
  ∃ content t', (f.replace content).run t = (.ok (), t')

theorem Ready.usable (h : f.Ready t₁) (prepared : f.prepared? t = some t₁) : f.Usable t := by
  obtain ⟨t', run, -⟩ := h.run_swap ""
  exact ⟨"", t', run_replace_eq_ok.2 ⟨t₁, prepared, run⟩⟩

/-- A file that can be replaced at all can be replaced by any content, again and again. -/
theorem Usable.run_replace (h : f.Usable t) (content : String) :
    ∃ t', (f.replace content).run t = (.ok (), t') ∧ t'.readText f.path = .ok content ∧
      f.Usable t' := by
  obtain ⟨_, _, done⟩ := h
  obtain ⟨t₁, prepared, swapped⟩ := run_replace_eq_ok.1 done
  obtain ⟨t', run, read, keeps, ready⟩ := (ready_of_run_swap swapped).run_swap content
  obtain ⟨t'', again, -⟩ := ready.run_swap content
  exact ⟨t', run_replace_eq_ok.2 ⟨t₁, prepared, run⟩, read,
    ⟨content, t'', run_replace_eq_ok.2 ⟨t', prepared?_again prepared keeps, again⟩⟩⟩

end Replaceable

end Foreman

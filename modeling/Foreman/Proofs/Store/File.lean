import Foreman.Proofs.Files.Replacement
import Foreman.Proofs.Task.Document
import Foreman.Store.File

namespace Foreman.FileStore

variable {s : FileStore} {t t' : FileTree} {b : TaskBook}

/-- The file holds the book: it is missing, which stands for the empty one, or its text reads as
the book. -/
def Holds (s : FileStore) (t : FileTree) (b : TaskBook) : Prop :=
  t.exists? s.path = .ok false ∧ b = .empty ∨
    ∃ content, t.readText s.path = .ok content ∧ TaskBook.parse? content = some b

theorem Holds.load (h : s.Holds t b) : s.load.run t = (.ok b, t) := by
  rcases h with ⟨missing, rfl⟩ | ⟨content, read, parsed⟩
  · simp [FileStore.load, FileProgram.run, missing, Fault.expect]
  · have there := FileTree.exists?_of_stat (FileTree.readText_eq_ok.1 read)
    simp [FileStore.load, FileProgram.run, there, read, parsed, Fault.expect]

/-- A book that is saved is there, and can be replaced. -/
theorem run_save (usable : s.file.Usable t) (restored : b.Restored) :
    ∃ t', (s.save b).run t = (.ok (), t') ∧ t'.readText s.path = .ok b.render ∧ s.Holds t' b ∧
      s.file.Usable t' := by
  obtain ⟨t', run, read, usable'⟩ := usable.run_replace b.render
  exact ⟨t', run, read, .inr ⟨b.render, read, TaskBook.parse?_render restored⟩, usable'⟩

/-- Every book is loaded as it was saved. What was loaded, from whatever text, may be saved in its
place: loading gives the same once more, and saving that leaves the text as it is. -/
theorem load_save (usable : s.file.Usable t) :
    (∀ b : TaskBook, b.Restored →
      ∃ t', (s.save b).run t = (.ok (), t') ∧ s.load.run t' = (.ok b, t')) ∧
    ∀ b : TaskBook, (s.load.run t).1 = .ok b → b.Restored →
      ∃ t' t'', (s.save b).run t = (.ok (), t') ∧ (s.load.run t').1 = (s.load.run t).1 ∧
        (s.save b).run t' = (.ok (), t'') ∧ t''.readText s.path = t'.readText s.path := by
  constructor
  · intro b restored
    obtain ⟨t', run, -, holds, -⟩ := run_save usable restored
    exact ⟨t', run, holds.load⟩
  · intro b loaded restored
    obtain ⟨t', run, read, holds, usable'⟩ := run_save usable restored
    obtain ⟨t'', run', read', -⟩ := run_save usable' restored
    refine ⟨t', t'', run, ?_, run', read'.trans read.symm⟩
    rw [holds.load, loaded]

/-- A task that uses every kind of field to its end. -/
def fullTask : Task where
  id := "t-1"
  title := "Größe \"prüfen\"\n"
  description := some ""
  notes := none
  area := some "\x00\t\\"
  status := .inProgress
  commit := none
  metrics := some ⟨some 4294967295, some ⟨0x3FE0000000000000⟩, none,
    some ⟨0, 1, 2, 18446744073709551615⟩⟩
  created := ⟨⟨0, 2, 29, by decide⟩, 0, 1, by decide⟩
  completed := some ⟨⟨9999, 12, 31, by decide⟩, 86399, 1999999999, by decide⟩

/-- A file in the working directory, which holds an empty book among other things. -/
def foreignText : String := "\x7b\"version\":2,\"tasks\":[]\x7d"

def foreignTree : FileTree := ⟨[(["tasks.json"], .file foreignText.toUTF8)], []⟩

def tasksFile : FileStore := ⟨"tasks.json"⟩

theorem restored_fullTask : TaskBook.Restored ⟨[fullTask]⟩ := by
  intro t ht m hm x hx
  rw [List.mem_singleton.1 ht] at hm
  cases hm
  cases hx
  decide +kernel

theorem locate_tasksFile (entries : List (List String × FileNode)) :
    FileTree.locate ⟨entries, []⟩ tasksFile.path = .ok ["tasks.json"] := by
  rfl

theorem usable_tasksFile {entries : List (List String × FileNode)}
    (file : FileTree.Free ⟨entries, []⟩ ["tasks.json"])
    (other : FileTree.Free ⟨entries, []⟩ ["tasks.json.tmp"]) :
    tasksFile.file.Usable ⟨entries, []⟩ := by
  have temporary : tasksFile.file.temporaryPath = "tasks.json.tmp" := by decide +kernel
  have beside : FileTree.locate ⟨entries, []⟩ "tasks.json.tmp" = .ok ["tasks.json.tmp"] := by rfl
  have ready : tasksFile.file.Ready ⟨entries, []⟩ := by
    constructor
    · rw [temporary]
      exact ⟨["tasks.json.tmp"], beside, other⟩
    · exact ⟨["tasks.json"], locate_tasksFile entries, file⟩
  exact ready.usable (by rfl)

theorem usable_foreignTree : tasksFile.file.Usable foreignTree := usable_tasksFile nofun nofun

theorem holds_foreignTree : tasksFile.Holds foreignTree .empty := by
  refine .inr ⟨foreignText, ?_, by decide +kernel⟩
  exact FileTree.readText_eq_ok.2 (FileTree.stat_eq_ok.2 ⟨["tasks.json"], locate_tasksFile _, rfl⟩)

theorem load_save_fullTask :
    tasksFile.file.Usable foreignTree ∧ TaskBook.Restored ⟨[fullTask]⟩ ∧ TaskBook.empty.Restored ∧
      (tasksFile.load.run foreignTree).1 = .ok .empty ∧
      (∃ t', (tasksFile.save ⟨[fullTask]⟩).run foreignTree = (.ok (), t') ∧
        tasksFile.load.run t' = (.ok ⟨[fullTask]⟩, t')) ∧
      ∃ t' t'', (tasksFile.save .empty).run foreignTree = (.ok (), t') ∧
        (tasksFile.load.run t').1 = (tasksFile.load.run foreignTree).1 ∧
        (tasksFile.save .empty).run t' = (.ok (), t'') ∧
        t''.readText tasksFile.path = t'.readText tasksFile.path := by
  have loaded : (tasksFile.load.run foreignTree).1 = .ok .empty :=
    congrArg Prod.fst holds_foreignTree.load
  obtain ⟨saved, again⟩ := load_save usable_foreignTree
  exact ⟨usable_foreignTree, restored_fullTask, TaskBook.restored_empty, loaded,
    saved _ restored_fullTask,
    again _ loaded TaskBook.restored_empty⟩

end Foreman.FileStore

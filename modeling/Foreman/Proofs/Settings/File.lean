import Foreman.Proofs.Files.Replacement
import Foreman.Proofs.Settings.Document
import Foreman.Settings.File

namespace Foreman.Settings

variable {s : Settings} {t : FileTree}

theorem load_of_readText (valid : s.defect? = none) (read : t.readText path = .ok s.render) :
    (load path).run t = (.ok s, t) := by
  have there := FileTree.exists?_of_stat (FileTree.readText_eq_ok.1 read)
  simp [load, FileProgram.run, there, read, Fault.expect, parse?_render, checked, valid]

/-- Valid settings are loaded as they were saved; of others nothing is saved. -/
theorem save_then_load (path : String) (s : Settings) (t : FileTree) :
    (s.defect? = none → (file path).Usable t →
      ∃ t', (save path s).run t = (.ok (), t') ∧ (load path).run t' = (.ok s, t')) ∧
    ∀ d, s.defect? = some d → (save path s).run t = (.error (.of d.message), t) := by
  constructor
  · intro valid usable
    obtain ⟨t', saved, read, -⟩ := usable.run_replace s.render
    refine ⟨t', ?_, load_of_readText valid read⟩
    rw [save, valid]
    exact saved
  · intro d defect
    rw [save, defect]
    rfl

/-- Settings with all kinds of texts in them. -/
def quotedSettings : Settings where
  pollSeconds := 18446744073709551614
  agentSeconds := 18446744073709551614
  shutdownSeconds := 18446744073709551615
  outputLimit := 1
  noticeCapacity := 1
  repository := ⟨some "it's \"there\"", "C:\\work", "größe\x7f", "'''\n\"\"\"\r\n"⟩
  agent :=
    { program := "\ttab"
      arguments := []
      passthrough := ["", "'"]
      assignments := .ofList [("A B", "\n"), ("", "\\"), ("'\"", "\x00")] }
  storePath := "\n\n"
  secretVariables := ["one"]

def impatientSettings : Settings := { standard with pollSeconds := 0 }

theorem usable_settingsFile : (file "dispatcher.toml").Usable .empty :=
  ⟨"", ⟨[(["dispatcher.toml"], .file "".toUTF8)], []⟩, rfl⟩

theorem save_then_load_quotedSettings :
    (∃ t', (save "dispatcher.toml" quotedSettings).run .empty = (.ok (), t') ∧
        (load "dispatcher.toml").run t' = (.ok quotedSettings, t')) ∧
      (save "dispatcher.toml" impatientSettings).run .empty =
        (.error (.of "poll_interval_secs must be > 0"), .empty) := by
  have valid : quotedSettings.defect? = none := by decide +kernel
  have defect : impatientSettings.defect? = some .noPollInterval := by decide +kernel
  exact ⟨(save_then_load _ _ _).1 valid usable_settingsFile,
    (save_then_load _ _ _).2 .noPollInterval defect⟩

end Foreman.Settings

import Foreman.Git.Verification
import Foreman.Proofs.Text.Lines
import Foreman.Proofs.Text.Search

namespace Foreman

/-- The characters of a reference: no white space, no control character, and none with a meaning in
revisions or patterns. -/
def isReferenceChar (c : Char) : Bool :=
  !Text.isBlank c && 32 ≤ c.toNat && c.toNat ≠ 127 && !"~^:?*[\\".toList.contains c

def IsReference (name : String) : Prop := name ≠ "" ∧ ∀ c ∈ name.toList, isReferenceChar c = true

instance (name : String) : Decidable (IsReference name) :=
  decidable_of_iff (name ≠ "" ∧ name.toList.all isReferenceChar = true)
    (by rw [IsReference, List.all_eq_true])

/-- A line of the list: a branch, or the alias that a remote has for one of its branches. -/
inductive BranchLine where
  | branch (name : String)
  | symbolic (remote target : String)
deriving DecidableEq, Repr

namespace BranchLine

def text : BranchLine → String
  | .branch name => s!"  {name}"
  | .symbolic remote target => s!"  {remote}/HEAD -> {remote}/{target}"

def Proper : BranchLine → Prop
  | .branch name => IsReference name
  | .symbolic remote target => IsReference remote ∧ IsReference target

instance : DecidablePred Proper
  | .branch name => inferInstanceAs (Decidable (IsReference name))
  | .symbolic remote target => inferInstanceAs (Decidable (IsReference remote ∧ IsReference target))

/-- The list as it is printed. -/
def printed (lines : List BranchLine) : String := String.join (lines.map fun l => l.text ++ "\n")

abbrev arrow : List Char := ['-', '>']

/-- The branch that a line is read as. -/
def shown? : BranchLine → Option String
  | .branch name => if Text.occursIn arrow name.toList then none else some name
  | .symbolic _ _ => none

variable {name : String} {l : BranchLine} {lines : List BranchLine}

theorem isBlank_of_isReferenceChar (h : isReferenceChar c = true) : Text.isBlank c = false := by
  simp only [isReferenceChar, Bool.and_eq_true, Bool.not_eq_true'] at h
  exact h.1.1.1

/-- What stands on a line behind the two spaces. -/
def body : BranchLine → List Char
  | .branch name => name.toList
  | .symbolic remote target =>
    remote.toList ++ (("/HEAD -> " ++ remote ++ "/").toList ++ target.toList)

theorem toList_text (l : BranchLine) : l.text.toList = [' ', ' '] ++ l.body := by
  cases l <;> simp [text, body, toString]

theorem solid_of_isReference (h : IsReference name) (hc : c ∈ name.toList) :
    Text.isBlank c = false :=
  isBlank_of_isReferenceChar (h.2 c hc)

theorem eq_space_of_mem_body (h : l.Proper) (hc : c ∈ l.body) :
    c = ' ' ∨ Text.isBlank c = false := by
  cases l with
  | branch name => exact .inr (solid_of_isReference h hc)
  | symbolic remote target =>
    have all : "/HEAD -> /".toList.all (fun d => d == ' ' || !Text.isBlank d) = true := by decide
    have fixed (d : Char) (hd : d ∈ "/HEAD -> /".toList) : d = ' ' ∨ Text.isBlank d = false := by
      simpa using List.all_eq_true.1 all d hd
    simp only [body, List.mem_append, String.toList_append] at hc
    rcases hc with hc | ((hc | hc) | hc) | hc
    · exact .inr (solid_of_isReference h.1 hc)
    · exact fixed c (List.mem_append_left ['/'] hc)
    · exact .inr (solid_of_isReference h.1 hc)
    · exact fixed c (List.mem_append_right "/HEAD -> ".toList hc)
    · exact .inr (solid_of_isReference h.2 hc)

theorem not_mem_text (h : l.Proper) (hc : Text.isBlank c = true) (ne : c ≠ ' ') :
    c ∉ l.text.toList := by
  rw [toList_text]
  intro inside
  rcases List.mem_append.1 inside with front | inside
  · simp [ne] at front
  · rcases eq_space_of_mem_body h inside with same | solid
    · exact ne same
    · rw [hc] at solid
      cases solid

theorem trimmed_body (h : l.Proper) : Text.Trimmed l.body := by
  have trimmed {name : String} (h : IsReference name) : Text.Trimmed name.toList :=
    Text.trimmed_of_solid fun _ hc => solid_of_isReference h hc
  have ne {name : String} (h : IsReference name) : name.toList ≠ [] := by simpa using h.1
  cases l with
  | branch name => exact trimmed h
  | symbolic remote target => exact (trimmed h.1).append (ne h.1) (trimmed h.2) (ne h.2) _

theorem arrow_occurs (remote target : String) :
    Text.occursIn arrow (BranchLine.symbolic remote target).body = true := by
  rw [Text.occursIn_iff]
  refine ⟨remote.toList ++ "/HEAD ".toList, ' ' :: (remote ++ "/" ++ target).toList, ?_⟩
  simp [body]

theorem branchName?_text (h : l.Proper) :
    Checkout.branchName? l.text.toList = l.shown?.map String.toList := by
  have spaces : Text.Blank [' ', ' '] := Text.isBlankText_iff.1 rfl
  have trimmed : Text.trim l.text.toList = l.body := by
    have whole := (trimmed_body h).trim_eq spaces Text.blank_nil
    rwa [List.append_nil, ← toList_text] at whole
  have start : l.text.toList.dropWhile (· == '*') = l.text.toList := by
    rw [toList_text]
    rfl
  rw [Checkout.branchName?, start, trimmed]
  cases l with
  | symbolic remote target => simp [arrow_occurs, shown?]
  | branch name =>
    have ne : name.toList ≠ [] := by simpa using h.1
    cases looks : Text.occursIn arrow name.toList <;> simp [body, shown?, ne, looks]

theorem lines_printed (proper : ∀ l ∈ lines, l.Proper) :
    Text.lines (printed lines).toList = lines.map fun l => l.text.toList := by
  rw [printed, String.toList_join, List.flatMap_map]
  induction lines with
  | nil => rfl
  | cons l lines ih =>
    obtain ⟨first, rest⟩ := List.forall_mem_cons.1 proper
    have feed := not_mem_text first (c := '\n') rfl (by decide)
    have ret := not_mem_text first (c := '\r') rfl (by decide)
    have split : (l.text ++ "\n").toList = l.text.toList ++ ['\n'] := String.toList_append
    rw [List.flatMap_cons, split, List.append_assoc, List.singleton_append,
      Text.lines_append_feed feed, Text.chomp_of_not_mem ret, ih rest, List.map_cons]

/-- What is read from the list are the branches on it, but for those that look like an alias. -/
theorem branchNames_printed (proper : ∀ l ∈ lines, l.Proper) :
    Checkout.branchNames (printed lines) = lines.filterMap shown? := by
  rw [Checkout.branchNames, lines_printed proper]
  induction lines with
  | nil => rfl
  | cons l lines ih =>
    obtain ⟨first, rest⟩ := List.forall_mem_cons.1 proper
    rw [List.map_cons, List.filterMap_cons, List.filterMap_cons, branchName?_text first]
    cases l.shown? with
    | none => exact ih rest
    | some name =>
      simp only [Option.map_some, List.map_cons, ih rest, String.ofList_toList]

theorem mem_branchNames_printed (proper : ∀ l ∈ lines, l.Proper) :
    name ∈ Checkout.branchNames (printed lines) ↔
      .branch name ∈ lines ∧ ¬ arrow <:+: name.toList := by
  rw [branchNames_printed proper, List.mem_filterMap, ← Text.occursIn_iff, Bool.not_eq_true]
  constructor
  · rintro ⟨l, hl, shown⟩
    cases l with
    | symbolic remote target => cases shown
    | branch other =>
      rw [shown?] at shown
      split at shown
      · cases shown
      · rename_i plain
        cases shown
        exact ⟨hl, Bool.eq_false_iff.2 plain⟩
  · rintro ⟨hl, plain⟩
    exact ⟨_, hl, by simp [shown?, plain]⟩

end BranchLine

/-- Whether a command was run and ended with exit code zero. -/
def succeeded : Except LaunchError GitOutput → Bool
  | .ok r => r.success
  | .error _ => false

theorem GitProgram.run_bind (h : GitHost σ) (p : GitProgram α) (f : α → GitProgram β) (w : σ) :
    (p >>= f).run h w = (f (p.run h w).1).run h (p.run h w).2 := by
  change (p.bind f).run h w = _
  induction p generalizing w with
  | done a => rfl
  | present path next ih => exact ih _ w
  | makeDirectories path next ih => exact ih _ _
  | command place arguments next ih => exact ih _ _

namespace GitAction

variable {h : GitHost σ} {w w' : σ} {x : GitAction α}

theorem run_bind_ok (first : x.run.run h w = (.ok a, w')) (f : α → GitAction β) :
    (x >>= f).run.run h w = (f a).run.run h w' := by
  rw [ExceptT.run_bind, GitProgram.run_bind, first]

theorem run_bind_error (first : x.run.run h w = (.error e, w')) (f : α → GitAction β) :
    (x >>= f).run.run h w = (.error e, w') := by
  rw [ExceptT.run_bind, GitProgram.run_bind, first]
  rfl

end GitAction

namespace Checkout

open BranchLine (arrow printed)
open GitAction (run_bind_ok run_bind_error)

variable {h : GitHost σ} {w w' w'' : σ} {c : Checkout} {t : PushTarget} {r r' : GitOutput}
variable {answer : Except LaunchError GitOutput} {commit : String}

/-- A command that must succeed gives its output if it does. -/
theorem run_require_ok (answered : h.command (some c.workdir) arguments w = (.ok r, w'))
    (good : r.success = true) : (c.require arguments).run.run h w = (.ok r, w') := by
  have first : (c.run arguments).run.run h w = (.ok r, w') := by
    simp only [run, ExceptT.run_mk, GitProgram.run, answered]
    rfl
  rw [require, run_bind_ok first, if_pos good]
  rfl

theorem run_require_error (answered : h.command (some c.workdir) arguments w = (answer, w'))
    (bad : succeeded answer = false) :
    ∃ f, (c.require arguments).run.run h w = (.error f, w') := by
  cases answer with
  | error e =>
    have first : (c.run arguments).run.run h w =
        (.error (e.within s!"spawn {commandLine arguments}"), w') := by
      simp only [run, ExceptT.run_mk, GitProgram.run, answered]
      rfl
    exact ⟨_, run_bind_error first _⟩
  | ok r =>
    have first : (c.run arguments).run.run h w = (.ok r, w') := by
      simp only [run, ExceptT.run_mk, GitProgram.run, answered]
      rfl
    have bad : ¬ r.success = true := Bool.eq_false_iff.1 bad
    rw [require, run_bind_ok first, if_neg bad]
    exact ⟨_, rfl⟩

theorem run_verifies_ok
    (fetched : h.command (some c.workdir) ["fetch", "--prune", t.remote] w = (.ok r, w'))
    (good : r.success = true)
    (listed : h.command (some c.workdir) ["branch", "-r", "--contains", commit] w' = (.ok r', w''))
    (good' : r'.success = true) :
    (c.verifies t commit).run h w = (t.isAmong (branchNames r'.output), w'') := by
  have first : (c.fetch t.remote).run.run h w = (.ok (), w') :=
    run_bind_ok (run_require_ok fetched good) _
  have second : (c.branchesWith commit).run.run h w' = (.ok (branchNames r'.output), w'') :=
    run_bind_ok (run_require_ok listed good') _
  rw [verifies, GitProgram.run_bind, run_bind_ok first, second]
  rfl

theorem run_verifies_unfetched
    (fetched : h.command (some c.workdir) ["fetch", "--prune", t.remote] w = (answer, w'))
    (bad : succeeded answer = false) : (c.verifies t commit).run h w = (false, w') := by
  obtain ⟨f, failed⟩ := run_require_error fetched bad
  have first : (c.fetch t.remote).run.run h w = (.error f, w') := run_bind_error failed _
  rw [verifies, GitProgram.run_bind, run_bind_error first]
  rfl

theorem run_verifies_unlisted
    (fetched : h.command (some c.workdir) ["fetch", "--prune", t.remote] w = (.ok r, w'))
    (good : r.success = true)
    (listed : h.command (some c.workdir) ["branch", "-r", "--contains", commit] w' = (answer, w''))
    (bad : succeeded answer = false) : (c.verifies t commit).run h w = (false, w'') := by
  obtain ⟨f, failed⟩ := run_require_error listed bad
  have first : (c.fetch t.remote).run.run h w = (.ok (), w') :=
    run_bind_ok (run_require_ok fetched good) _
  have second : (c.branchesWith commit).run.run h w' = (.error f, w'') := run_bind_error failed _
  rw [verifies, GitProgram.run_bind, run_bind_ok first, second]
  rfl

/-- What git answers when the remote is asked again, and the world after that. -/
def fetched (c : Checkout) (h : GitHost σ) (t : PushTarget) (w : σ) :
    Except LaunchError GitOutput × σ :=
  h.command (some c.workdir) ["fetch", "--prune", t.remote] w

/-- What git answers when it is asked, after that, which remote branches have a commit. -/
def listed (c : Checkout) (h : GitHost σ) (t : PushTarget) (commit : String) (w : σ) :
    Except LaunchError GitOutput × σ :=
  h.command (some c.workdir) ["branch", "-r", "--contains", commit] (c.fetched h t w).2

/-- A commit is verified exactly if the list has the branch that it was to be pushed to, and the
name of the branch does not have an arrow in it. Where git fails the commit is not verified. -/
theorem verifies_exact (h : GitHost σ) (w : σ) (c : Checkout) (t : PushTarget) (commit : String) :
    (∀ r lines, succeeded (c.fetched h t w).1 = true → (c.listed h t commit w).1 = .ok r →
      r.success = true → r.output = printed lines → (∀ l ∈ lines, l.Proper) →
      (((c.verifies t commit).run h w).1 = true ↔
        .branch t.text ∈ lines ∧ ¬ arrow <:+: t.text.toList)) ∧
    (succeeded (c.fetched h t w).1 = false ∨ succeeded (c.listed h t commit w).1 = false →
      ((c.verifies t commit).run h w).1 = false) := by
  cases first : c.fetched h t w with
  | mk answer w₁ =>
    cases second : c.listed h t commit w with
    | mk answer' w₂ =>
      have query : h.command (some c.workdir) ["branch", "-r", "--contains", commit] w₁ =
          (answer', w₂) := by
        rwa [listed, first] at second
      constructor
      · intro r lines good there good' output proper
        cases answer with
        | error e => cases good
        | ok r₀ =>
          cases there
          rw [run_verifies_ok first good query good', output]
          exact List.contains_iff_mem.trans (BranchLine.mem_branchNames_printed proper)
      · intro bad
        cases refreshed : succeeded answer with
        | false => rw [run_verifies_unfetched first refreshed]
        | true =>
          have silent : succeeded answer' = false := bad.resolve_left (by simp [refreshed])
          cases answer with
          | error e => cases refreshed
          | ok r₀ => rw [run_verifies_unlisted first refreshed query silent]

/-- Git that answers every command alike. -/
def steadyGit (answer : Except LaunchError GitOutput) : GitHost Unit where
  present _ _ := true
  makeDirectories _ _ := (.ok (), ())
  command _ _ _ := (answer, ())

/-- Among look-alikes and behind an alias a branch is found by its whole name. -/
theorem verifies_among_lookalikes :
    let lines : List BranchLine :=
      [.branch "fork/main", .branch "origin/main-old", .symbolic "origin" "main",
        .branch "origin/main"]
    let git := steadyGit (.ok ⟨true, printed lines, ""⟩)
    (∀ l ∈ lines, l.Proper) ∧
      (((Checkout.mk "ws").verifies ⟨"origin", "main"⟩ "abc1234").run git ()).1 = true ∧
      ¬ (((Checkout.mk "ws").verifies ⟨"origin", "HEAD"⟩ "abc1234").run git ()).1 = true ∧
      (((Checkout.mk "ws").verifies ⟨"origin", "main"⟩ "abc1234").run
        (steadyGit (.error .zeroByte)) ()).1 = false := by
  intro lines git
  have proper : ∀ l ∈ lines, l.Proper := by decide
  have plain : ¬ arrow <:+: (PushTarget.text ⟨"origin", "main"⟩).toList := by
    rw [← Text.occursIn_iff]
    decide
  have exact (t : PushTarget) := (verifies_exact git () ⟨"ws"⟩ t "abc1234").1
    ⟨true, printed lines, ""⟩ lines rfl rfl rfl rfl proper
  refine ⟨proper, (exact ⟨"origin", "main"⟩).2 ⟨by decide, plain⟩, fun found => ?_, ?_⟩
  · have absent : .branch (PushTarget.text ⟨"origin", "HEAD"⟩) ∉ lines := by decide
    exact absent ((exact ⟨"origin", "HEAD"⟩).1 found).1
  · exact (verifies_exact (steadyGit (.error .zeroByte)) () ⟨"ws"⟩ ⟨"origin", "main"⟩ "abc1234").2
      (.inl rfl)

/-- A branch with an arrow in its name is not found, though it is on the list. -/
theorem unverified_with_arrow :
    let lines : List BranchLine := [.branch "origin/fix->main"]
    (∀ l ∈ lines, l.Proper) ∧ .branch (PushTarget.text ⟨"origin", "fix->main"⟩) ∈ lines ∧
      ((Checkout.mk "ws").verifies ⟨"origin", "fix->main"⟩ "abc1234").run
        (steadyGit (.ok ⟨true, printed lines, ""⟩)) () = (false, ()) := by
  decide

end Checkout

end Foreman

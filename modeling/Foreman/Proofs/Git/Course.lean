import Foreman.Proofs.Git.Branches

namespace Foreman

/-- A question of a program with its answer. -/
inductive GitEvent where
  | present (path : String) (there : Bool)
  | makeDirectories (path : String) (answer : Except FileError Unit)
  | command (place : Option String) (arguments : List String)
      (answer : Except LaunchError GitOutput)

namespace GitProgram

/-- A program that is answered so ends with this result. -/
inductive Yields : GitProgram α → List GitEvent → α → Prop
  | done : Yields (.done a) [] a
  | present (there : Bool) (rest : Yields (next there) es a) :
      Yields (.present path next) (.present path there :: es) a
  | makeDirectories (answer : Except FileError Unit) (rest : Yields (next answer) es a) :
      Yields (.makeDirectories path next) (.makeDirectories path answer :: es) a
  | command (answer : Except LaunchError GitOutput) (rest : Yields (next answer) es a) :
      Yields (.command place arguments next) (.command place arguments answer :: es) a

/-- The questions of a run with their answers. -/
def log (h : GitHost σ) : GitProgram α → σ → List GitEvent
  | .done _, _ => []
  | .present path next, w =>
    let there := h.present path w
    .present path there :: (next there).log h w
  | .makeDirectories path next, w =>
    let (r, w) := h.makeDirectories path w
    .makeDirectories path r :: (next r).log h w
  | .command place arguments next, w =>
    let (r, w) := h.command place arguments w
    .command place arguments r :: (next r).log h w

variable {p : GitProgram α} {f : α → GitProgram β}

theorem yields_run (h : GitHost σ) (p : GitProgram α) (w : σ) :
    p.Yields (p.log h w) (p.run h w).1 := by
  induction p generalizing w with
  | done a => exact .done
  | present path next ih => exact .present _ (ih _ w)
  | makeDirectories path next ih => exact .makeDirectories _ (ih _ _)
  | command place arguments next ih => exact .command _ (ih _ _)

theorem Yields.of_pure (h : (pure a : GitProgram α).Yields es b) : es = [] ∧ b = a := by
  cases h
  exact ⟨rfl, rfl⟩

theorem Yields.of_bind (h : (p >>= f).Yields es b) :
    ∃ es₁ a es₂, es = es₁ ++ es₂ ∧ p.Yields es₁ a ∧ (f a).Yields es₂ b := by
  change (p.bind f).Yields es b at h
  induction p generalizing es with
  | done a => exact ⟨[], a, es, rfl, .done, h⟩
  | present path next ih =>
    cases h with
    | present answer rest =>
      obtain ⟨es₁, a, es₂, rfl, first, second⟩ := ih _ rest
      exact ⟨_, a, es₂, rfl, .present answer first, second⟩
  | makeDirectories path next ih =>
    cases h with
    | makeDirectories answer rest =>
      obtain ⟨es₁, a, es₂, rfl, first, second⟩ := ih _ rest
      exact ⟨_, a, es₂, rfl, .makeDirectories answer first, second⟩
  | command place arguments next ih =>
    cases h with
    | command answer rest =>
      obtain ⟨es₁, a, es₂, rfl, first, second⟩ := ih _ rest
      exact ⟨_, a, es₂, rfl, .command answer first, second⟩

end GitProgram

namespace GitAction

variable {x : GitAction α} {f : α → GitAction β}

/-- The course of an action that may fail. -/
abbrev Yields (x : GitAction α) (es : List GitEvent) (r : Except Fault α) : Prop :=
  GitProgram.Yields x.run es r

/-- An action that goes on with another one fails with it, or the other one goes on. -/
theorem Yields.of_bind (h : GitAction.Yields (x >>= f) es r) :
    (∃ e, GitAction.Yields x es (.error e) ∧ r = .error e) ∨
      ∃ es₁ a es₂, es = es₁ ++ es₂ ∧ GitAction.Yields x es₁ (.ok a) ∧
        GitAction.Yields (f a) es₂ r := by
  rw [GitAction.Yields, ExceptT.run_bind] at h
  obtain ⟨es₁, a, es₂, rfl, first, second⟩ := GitProgram.Yields.of_bind h
  cases a with
  | ok a => exact .inr ⟨es₁, a, es₂, rfl, first, second⟩
  | error e =>
    obtain ⟨rfl, rfl⟩ := second.of_pure
    rw [List.append_nil]
    exact .inl ⟨e, first, rfl⟩

theorem Yields.of_tryCatch {handle : Fault → GitAction α}
    (h : GitAction.Yields (tryCatch x handle) es r) :
    (∃ a, GitAction.Yields x es (.ok a) ∧ r = .ok a) ∨
      ∃ es₁ e es₂, es = es₁ ++ es₂ ∧ GitAction.Yields x es₁ (.error e) ∧
        GitAction.Yields (handle e) es₂ r := by
  obtain ⟨es₁, a, es₂, rfl, first, second⟩ := GitProgram.Yields.of_bind h
  cases a with
  | ok a =>
    obtain ⟨rfl, rfl⟩ := second.of_pure
    rw [List.append_nil]
    exact .inl ⟨a, first, rfl⟩
  | error e => exact .inr ⟨es₁, e, es₂, rfl, first, second⟩

/-- After a command the action fails if it was not run, or goes on with what it printed. -/
theorem Yields.of_command {blame : LaunchError → Fault} {next : GitOutput → GitAction α}
    (h : GitAction.Yields
      (ExceptT.mk (.command place arguments fun r => .done (r.mapError blame)) >>= next) es r) :
    ∃ answer more, es = .command place arguments answer :: more ∧
      ((∃ e f, answer = .error e ∧ more = [] ∧ r = .error f) ∨
        ∃ o, answer = .ok o ∧ GitAction.Yields (next o) more r) := by
  rcases GitAction.Yields.of_bind h with ⟨f, first, rfl⟩ | ⟨es₁, o, es₂, rfl, first, rest⟩
  · cases first with
    | command answer done =>
      cases answer with
      | ok o => cases done
      | error e =>
        cases done
        exact ⟨_, [], rfl, .inl ⟨e, _, rfl, rfl, rfl⟩⟩
  · cases first with
    | command answer done =>
      cases answer with
      | error e => cases done
      | ok o =>
        cases done
        exact ⟨_, es₂, rfl, .inr ⟨o, rfl, rest⟩⟩

/-- A command that must succeed gives a value if it does, and fails if it does not. -/
theorem Yields.of_required (value : GitOutput → α) {blame : LaunchError → Fault}
    {complain : GitOutput → Fault}
    (h : GitAction.Yields (do
      let o ← ExceptT.mk (.command place arguments fun r => .done (r.mapError blame))
      if o.success then return value o else throw (complain o)) es r) :
    ∃ answer, es = [.command place arguments answer] ∧
      ((∃ o, answer = .ok o ∧ o.success = true ∧ r = .ok (value o)) ∨
        succeeded answer = false ∧ ∃ f, r = .error f) := by
  obtain ⟨answer, more, rfl, ⟨e, f, rfl, rfl, rfl⟩ | ⟨o, rfl, rest⟩⟩ := Yields.of_command h
  · exact ⟨_, rfl, .inr ⟨rfl, f, rfl⟩⟩
  · cases good : o.success with
    | true =>
      rw [if_pos good] at rest
      obtain ⟨rfl, rfl⟩ := rest.of_pure
      exact ⟨.ok o, rfl, .inl ⟨o, rfl, good, rfl⟩⟩
    | false =>
      rw [if_neg (by simp [good])] at rest
      obtain ⟨rfl, rfl⟩ := rest.of_pure
      exact ⟨.ok o, rfl, .inr ⟨good, _, rfl⟩⟩

end GitAction

namespace Checkout

variable {c : Checkout}

theorem yields_require (h : GitAction.Yields (c.require arguments) es r) :
    ∃ answer, es = [.command (some c.workdir) arguments answer] ∧
      ((∃ o, answer = .ok o ∧ o.success = true ∧ r = .ok o) ∨
        succeeded answer = false ∧ ∃ f, r = .error f) :=
  GitAction.Yields.of_required id h

/-- A command whose output does not matter, as long as it succeeds. -/
theorem yields_perform (h : GitAction.Yields (do let _ ← c.require arguments) es r) :
    ∃ answer, es = [.command (some c.workdir) arguments answer] ∧ r.isOk = succeeded answer := by
  rcases GitAction.Yields.of_bind h with ⟨e, first, rfl⟩ | ⟨es₁, o, es₂, rfl, first, second⟩
  · obtain ⟨answer, rfl, ⟨o, -, -, done⟩ | ⟨bad, -⟩⟩ := yields_require first
    · cases done
    · exact ⟨answer, rfl, bad.symm⟩
  · obtain ⟨rfl, rfl⟩ := second.of_pure
    obtain ⟨answer, rfl, ⟨o', rfl, good, -⟩ | ⟨-, f, failed⟩⟩ := yields_require first
    · exact ⟨_, rfl, good.symm⟩
    · cases failed

/-- The branch that is checked out, if the answer names one. -/
def named? : Except LaunchError GitOutput → Option String
  | .ok o => if o.success ∧ trimmed o.output ≠ "HEAD" then some (trimmed o.output) else none
  | .error _ => none

theorem yields_currentBranch (h : GitAction.Yields c.currentBranch es r) :
    ∃ answer, es = [.command (some c.workdir) ["rev-parse", "--abbrev-ref", "HEAD"] answer] ∧
      r.toOption = named? answer := by
  rcases GitAction.Yields.of_bind h with ⟨e, first, rfl⟩ | ⟨es₁, o, es₂, rfl, first, second⟩
  · obtain ⟨answer, rfl, ⟨o, -, -, done⟩ | ⟨bad, -⟩⟩ := yields_require first
    · cases done
    · refine ⟨answer, rfl, ?_⟩
      cases answer with
      | ok o =>
        have bad : o.success = false := bad
        simp [named?, bad, Except.toOption]
      | error e => rfl
  · obtain ⟨answer, rfl, ⟨o', rfl, good, same⟩ | ⟨-, f, failed⟩⟩ := yields_require first
    · cases same
      refine ⟨.ok o, ?_⟩
      by_cases detached : trimmed o.output = "HEAD"
      · rw [if_pos detached] at second
        obtain ⟨rfl, rfl⟩ := second.of_pure
        exact ⟨rfl, by simp [named?, detached, Except.toOption]⟩
      · rw [if_neg detached] at second
        obtain ⟨rfl, rfl⟩ := second.of_pure
        exact ⟨rfl, by simp [named?, detached, good, Except.toOption]⟩
    · cases failed

/-- Where git can be asked at all, what follows depends on whether the reference is there. -/
theorem yields_seek {next : Bool → GitAction α}
    (h : GitAction.Yields (c.hasReference reference >>= next) es r) :
    ∃ answer more,
      es = .command (some c.workdir) ["show-ref", "--verify", "--quiet", reference] answer :: more ∧
      ((∃ e f, answer = .error e ∧ more = [] ∧ r = .error f) ∨
        ∃ o, answer = .ok o ∧ GitAction.Yields (next o.success) more r) := by
  rcases GitAction.Yields.of_bind h with ⟨f, sought, rfl⟩ | ⟨es₁, there, es₂, rfl, sought, rest⟩
  · obtain ⟨answer, more, rfl, ⟨e, -, rfl, rfl, -⟩ | ⟨o, -, told⟩⟩ :=
      GitAction.Yields.of_command sought
    · exact ⟨.error e, [], rfl, .inl ⟨e, f, rfl, rfl, rfl⟩⟩
    · obtain ⟨-, impossible⟩ := told.of_pure
      cases impossible
  · obtain ⟨answer, more, rfl, ⟨e, f, -, -, impossible⟩ | ⟨o, rfl, told⟩⟩ :=
      GitAction.Yields.of_command sought
    · cases impossible
    · obtain ⟨rfl, same⟩ := told.of_pure
      cases same
      exact ⟨.ok o, es₂, rfl, .inr ⟨o, rfl, rest⟩⟩

end Checkout

end Foreman

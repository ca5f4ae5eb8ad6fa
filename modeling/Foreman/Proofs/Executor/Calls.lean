import Foreman.Proofs.Executor.Parts

namespace Foreman.Executor

namespace State

variable {s s' : State}

def Starts (s : State) : Prop :=
  s.lifecycle = .starting ∧ (∃ c, ∀ d, s.callIs Call.isStart d = true ↔ d = c) ∨
    s.lifecycle ≠ .starting ∧ ∀ d, s.callIs Call.isStart d = false

theorem Starts.starting (h : s.Starts) (hc : s.callIs Call.isStart c = true) :
    s.lifecycle = .starting ∧ ∀ d, s.callIs Call.isStart d = true ↔ d = c := by
  rcases h with ⟨hs, c', only⟩ | ⟨_, none⟩
  · rw [(only c).1 hc]
    exact ⟨hs, only⟩
  · rw [none c] at hc
    cases hc

theorem Starts.step (h : s.Starts) (ht : Transition u s e s' effects) : s'.Starts := by
  cases ht.control with
  | kept same starts =>
    simp only [Starts, same, starts]
    exact h
  | @begins c he before after starts =>
    refine .inl ⟨after, c, fun d => ?_⟩
    rcases h with ⟨hs, _⟩ | ⟨_, none⟩
    · rw [before] at hs
      cases hs
    · rw [starts, none]
      simp
  | @fails c hc after starts | @launches c he hc after starts =>
    refine .inr ⟨by rw [after]; nofun, fun d => ?_⟩
    rw [starts]
    split
    · rfl
    · rename_i hd
      exact Bool.eq_false_iff.2 fun hd' => hd (((h.starting hc).2 d).1 hd')
  | stops he before after starts =>
    refine .inr ⟨by rw [after]; nofun, fun d => ?_⟩
    rcases h with ⟨hs, _⟩ | ⟨_, none⟩
    · rw [before] at hs
      cases hs
    · rw [starts, none]

def Gated (s : State) : Prop := ∀ d, s.callIs Call.isPoll d = true ↔ s.gate = some d

theorem Gated.step (h : s.Gated) (ht : Transition u s e s' effects) : s'.Gated := by
  intro d
  cases ht.passage with
  | kept same polls =>
    rw [same, polls]
    exact h d
  | @enters c he before after polls =>
    have hd := h d
    rw [before] at hd
    rw [after, polls]
    by_cases hc : d = c
    · simp [hc]
    · simp [hc, hd, Ne.symm hc]
  | @leaves c hc after polls =>
    have hg := (h c).1 hc
    have hd := h d
    rw [hg] at hd
    rw [after, polls]
    by_cases hc : d = c
    · simp [hc]
    · simp [hc, hd, Ne.symm hc]

end State

theorem State.starts_initial : State.initial.Starts := .inr ⟨nofun, fun _ => rfl⟩

theorem State.gated_initial : State.initial.Gated := fun _ => ⟨nofun, nofun⟩

theorem Reachable.starts (h : Reachable u s) : s.Starts :=
  h.keeps State.Starts.step State.starts_initial

theorem Reachable.gated (h : Reachable u s) : s.Gated :=
  h.keeps State.Gated.step State.gated_initial

end Foreman.Executor

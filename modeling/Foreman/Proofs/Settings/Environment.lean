import Foreman.Child.Launch
import Foreman.Proofs.Redaction.Hiding

namespace Foreman

namespace Variables

variable {vs vs' : Variables} {name value : String} {l : List (String × String)}

theorem lookup_cons_entry (m v : String) (l : List (String × String)) (n : String) :
    ((m, v) :: l).lookup n = if n = m then some v else l.lookup n := by
  rw [List.lookup_cons]
  by_cases same : n = m
  · rw [if_pos same, beq_iff_eq.2 same]
  · rw [if_neg same, beq_eq_false_iff_ne.2 same]

theorem lookup_insertEntry (name value : String) (l : List (String × String)) (n : String) :
    (insertEntry name value l).lookup n = if n = name then some value else l.lookup n := by
  induction l with
  | nil => exact lookup_cons_entry name value [] n
  | cons e l ih =>
    obtain ⟨m, v⟩ := e
    rw [insertEntry]
    split
    · exact lookup_cons_entry name value ((m, v) :: l) n
    · split
      · rename_i same
        rw [← same, lookup_cons_entry, lookup_cons_entry]
        by_cases found : n = name
        · rw [if_pos found, if_pos found]
        · rw [if_neg found, if_neg found, if_neg found]
      · rename_i ne
        rw [lookup_cons_entry, lookup_cons_entry, ih]
        by_cases found : n = m
        · have other : n ≠ name := found ▸ Ne.symm ne
          rw [if_pos found, if_neg other, if_pos found]
        · rw [if_neg found, if_neg found]

@[simp] theorem get?_empty (n : String) : empty.get? n = none := rfl

@[simp] theorem get?_insert (vs : Variables) (name value n : String) :
    (vs.insert name value).get? n = if n = name then some value else vs.get? n :=
  lookup_insertEntry name value vs.entries n

theorem lookup_eq_none_of_less (least : ∀ e ∈ l, name < e.1) : l.lookup name = none := by
  apply List.lookup_eq_none_iff.2
  intro e he
  apply bne_iff_ne.2
  intro same
  have less := least e he
  rw [same] at less
  exact String.lt_irrefl e.1 less

theorem mem_iff_lookup (ascending : l.Pairwise fun a b => a.1 < b.1) :
    (name, value) ∈ l ↔ l.lookup name = some value := by
  induction l with
  | nil => simp
  | cons e l ih =>
    obtain ⟨n, v⟩ := e
    obtain ⟨least, rest⟩ := List.pairwise_cons.1 ascending
    rw [List.mem_cons, lookup_cons_entry, ih rest]
    by_cases same : name = n
    · subst same
      simp [lookup_eq_none_of_less least, eq_comm]
    · simp [same]

/-- Variables are determined by the value of each name. -/
theorem ext_get? (h : ∀ name, vs.get? name = vs'.get? name) : vs = vs' := by
  have nodup (vs : Variables) : vs.entries.Nodup := by
    apply vs.ascending.imp
    intro a b less same
    rw [same] at less
    exact String.lt_irrefl b.1 less
  have members : ∀ e, e ∈ vs.entries ↔ e ∈ vs'.entries := by
    intro e
    rw [mem_iff_lookup vs.ascending, mem_iff_lookup vs'.ascending]
    exact Iff.of_eq (congrArg (· = some e.2) (h e.1))
  have same : vs.entries = vs'.entries := by
    have perm := (List.perm_ext_iff_of_nodup (nodup vs) (nodup vs')).2 members
    apply perm.eq_of_pairwise _ vs.ascending vs'.ascending
    intro a b _ _ less more
    exact (String.lt_irrefl a.1 (String.lt_trans less more)).elim
  cases vs
  cases vs'
  cases same
  rfl

theorem get?_foldl_insert (ascending : l.Pairwise fun a b => a.1 < b.1) (n : String) :
    (l.foldl (fun vs (name, value) => vs.insert name value) vs).get? n =
      (l.lookup n).or (vs.get? n) := by
  induction l generalizing vs with
  | nil => rfl
  | cons e l ih =>
    obtain ⟨name, value⟩ := e
    obtain ⟨least, rest⟩ := List.pairwise_cons.1 ascending
    rw [List.foldl_cons, ih rest, get?_insert, lookup_cons_entry]
    by_cases same : n = name
    · subst same
      simp [lookup_eq_none_of_less least]
    · simp [same]

end Variables

namespace Settings

variable {host : Host} {vs : Variables}

/-- The variables with one more, if the host has it. -/
def passed (host : Host) (vs : Variables) (name : String) : Variables :=
  match host name with
  | some value => vs.insert name value
  | none => vs

/-- A name that is listed several times has the same value each time. -/
theorem get?_foldl_passed (names : List String) (n : String) :
    (names.foldl (passed host) vs).get? n =
      if n ∈ names then (host n).or (vs.get? n) else vs.get? n := by
  induction names generalizing vs with
  | nil => simp
  | cons name names ih =>
    rw [List.foldl_cons, ih, passed]
    by_cases same : n = name
    · subst same
      cases host n with
      | none => simp
      | some value => simp
    · cases host name with
      | none => simp [same]
      | some value => simp [same]

/-- What is set for the agent stands in place of what is passed through. -/
theorem Agent.get?_environment (a : Agent) (host : Host) (n : String) :
    (a.environment host).get? n =
      (a.assignments.get? n).or (if n ∈ a.passthrough then host n else none) := by
  have made : a.environment host = a.assignments.entries.foldl
      (fun vs (name, value) => vs.insert name value)
      (a.passthrough.foldl (passed host) .empty) := rfl
  rw [made, Variables.get?_foldl_insert a.assignments.ascending, get?_foldl_passed,
    Variables.get?_empty, Option.or_none]
  rfl

theorem Agent.get?_environment_eq_some (a : Agent) (host : Host) (n v : String) :
    (a.environment host).get? n = some v ↔ a.assignments.get? n = some v ∨
      a.assignments.get? n = none ∧ n ∈ a.passthrough ∧ host n = some v := by
  rw [get?_environment]
  cases a.assignments.get? n with
  | none => simp
  | some value => simp

theorem mem_secrets_redactor {s : Settings} {value : String} :
    value ∈ (s.redactor host).secrets ↔
      ((∃ name ∈ s.secretVariables, host name = some value) ∨
        value ∈ s.agent.assignments.values) ∧ Redactor.isKept value = true := by
  rw [redactor, Redactor.mem_secrets_ofValues, List.mem_append, List.mem_filterMap]

/-- The agent sees of its host what it was granted and nothing else. In what order and how often
that is listed makes no difference. Every value that is set for it, and every one that it is passed
as a secret of the host, is hidden, if it is long enough. -/
theorem launch_granted (s : Settings) (host : Host) (directive : String) (timeout : Span) :
    (∀ host' : Host,
      (∀ n ∈ s.agent.passthrough, s.agent.assignments.get? n = none → host' n = host n) →
      (s.launch host' directive timeout).environment =
        (s.launch host directive timeout).environment) ∧
    (∀ n v, (s.launch host directive timeout).environment.get? n = some v ↔
      s.agent.assignments.get? n = some v ∨
        s.agent.assignments.get? n = none ∧ n ∈ s.agent.passthrough ∧ host n = some v) ∧
    (∀ names : List String, (∀ n, n ∈ names ↔ n ∈ s.agent.passthrough) →
      { s.agent with passthrough := names }.environment host =
        (s.launch host directive timeout).environment) ∧
    ∀ n v, (s.launch host directive timeout).environment.get? n = some v →
      s.agent.assignments.get? n = some v ∨ n ∈ s.agent.passthrough ∧ n ∈ s.secretVariables →
      6 ≤ (String.ofList (Text.trim v.toList)).utf8ByteSize →
      v ∈ (s.redactor host).secrets := by
  constructor
  · intro host' agree
    apply Variables.ext_get?
    intro n
    apply Option.ext
    intro v
    simp only [launch, Agent.get?_environment_eq_some]
    apply or_congr_right
    apply and_congr_right
    intro unset
    apply and_congr_right
    intro listed
    rw [agree n listed unset]
  constructor
  · exact s.agent.get?_environment_eq_some host
  constructor
  · intro names same
    apply Variables.ext_get?
    intro n
    simp only [launch, Agent.get?_environment, same]
  · intro n v gets granted long
    have kept : Redactor.isKept v = true := decide_eq_true long
    apply mem_secrets_redactor.2
    have assigned (h : s.agent.assignments.get? n = some v) : v ∈ s.agent.assignments.values :=
      List.mem_map_of_mem ((Variables.mem_iff_lookup s.agent.assignments.ascending).2 h)
    rcases (s.agent.get?_environment_eq_some host n v).1 gets with set | ⟨unset, -, passed⟩
    · exact ⟨.inr (assigned set), kept⟩
    · rcases granted with set | ⟨-, secret⟩
      · exact ⟨.inr (assigned set), kept⟩
      · exact ⟨.inl ⟨n, secret, passed⟩, kept⟩

/-- A token that is listed twice, and a home that is listed but set for the agent. -/
def homeSettings : Settings :=
  { standard with
    agent :=
      { standard.agent with
        passthrough := ["TOKEN", "HOME", "TOKEN"]
        assignments := .ofList [("HOME", "/srv/agent")] }
    secretVariables := ["TOKEN"] }

def laptop : Host
  | "TOKEN" => some "dpl-93f1c7e2a4"
  | "HOME" => some "/home/user"
  | _ => none

def server : Host
  | "TOKEN" => some "dpl-93f1c7e2a4"
  | "HOME" => some "/root"
  | "LANG" => some "C"
  | _ => none

theorem launch_granted_homeSettings :
    (∀ n ∈ homeSettings.agent.passthrough, homeSettings.agent.assignments.get? n = none →
      server n = laptop n) ∧
    (homeSettings.launch server "" ⟨0⟩).environment =
      (homeSettings.launch laptop "" ⟨0⟩).environment ∧
    (homeSettings.launch laptop "" ⟨0⟩).environment.get? "HOME" = some "/srv/agent" ∧
    (homeSettings.launch laptop "" ⟨0⟩).environment.get? "LANG" = none ∧
    "dpl-93f1c7e2a4" ∈ (homeSettings.redactor laptop).secrets := by
  obtain ⟨indifferent, exact, -, hidden⟩ := launch_granted homeSettings laptop "" ⟨0⟩
  have agree : ∀ n ∈ homeSettings.agent.passthrough,
      homeSettings.agent.assignments.get? n = none → server n = laptop n := by
    decide
  have token : (homeSettings.launch laptop "" ⟨0⟩).environment.get? "TOKEN" =
      some "dpl-93f1c7e2a4" := (exact "TOKEN" _).2 (.inr (by decide))
  have home := (exact "HOME" "/srv/agent").2 (.inl (by decide))
  have unlisted : (homeSettings.launch laptop "" ⟨0⟩).environment.get? "LANG" = none := by
    have unset : homeSettings.agent.assignments.get? "LANG" = none := by decide
    apply Option.eq_none_iff_forall_ne_some.2
    intro v granted
    rcases (exact "LANG" v).1 granted with set | ⟨-, listed, -⟩
    · rw [unset] at set
      cases set
    · exact absurd listed (by decide)
  exact ⟨agree, indifferent server agree, home, unlisted,
    hidden "TOKEN" _ token (.inr (by decide)) (by decide)⟩

end Settings

end Foreman

import Foreman.Git.Workspace
import Foreman.Proofs.Git.Course

/-!
# The ways of an attempt

An attempt to prepare a checkout is a walk through at most seven questions to git, each of which
depends on the answers before it. The ways it may take are listed stretch by stretch, and every run
takes one of them.
-/

namespace Foreman

namespace Workspace

/-- What git may be asked for. -/
inductive Step where
  | clone
  | fetch
  | seekLocal
  | seekRemote
  | askHead
  | switch
  | follow
  | create
  | pull
deriving DecidableEq, Repr

abbrev Answer := Except LaunchError GitOutput

/-- A step with what git answered. -/
abbrev Answered := Step × Answer

def Step.arguments (w : Workspace) : Step → List String
  | clone => "clone" :: (w.url.toList ++ [w.checkout.workdir])
  | fetch => ["fetch", "--prune", w.target.remote]
  | seekLocal => ["show-ref", "--verify", "--quiet", s!"refs/heads/{w.target.branch}"]
  | seekRemote =>
    ["show-ref", "--verify", "--quiet", s!"refs/remotes/{w.target.remote}/{w.target.branch}"]
  | askHead => ["rev-parse", "--abbrev-ref", "HEAD"]
  | switch => ["checkout", w.target.branch]
  | follow => ["checkout", "-b", w.target.branch, "--track", w.target.text]
  | create => ["checkout", "-b", w.target.branch]
  | pull => ["pull", "--ff-only"]

/-- Git clones where the program runs, and does all else in the checkout. -/
def Step.place (w : Workspace) : Step → Option String
  | clone => none
  | _ => some w.checkout.workdir

/-- What git is asked for shows in the arguments. -/
theorem arguments_injective (w : Workspace) : Function.Injective (Step.arguments w) := by
  have places : "refs/heads/" ≠ "refs/remotes/" ++ w.target.remote ++ "/" := by
    intro same
    have chars := congrArg String.toList same
    simp at chars
  intro s s' h
  cases s <;> cases s' <;> simp [Step.arguments, toString, places, places.symm] at h ⊢

def event (w : Workspace) (x : Answered) : GitEvent :=
  .command (x.1.place w) (x.1.arguments w) x.2

/-- What is asked in an attempt: whether there is a checkout, for a directory to clone into, and
then git. -/
def events (w : Workspace) (there : Bool) (parent : Option (String × Except FileError Unit))
    (xs : List Answered) : List GitEvent :=
  .present (Path.join w.checkout.workdir ".git") there ::
    (parent.toList.map (fun d => .makeDirectories d.1 d.2) ++ xs.map w.event)

/-- How the checkout comes to be on a branch that is there. -/
inductive Switching (w : Workspace) : List Answered → Except Fault Unit → Prop
  | already (a : Answer) (named : Checkout.named? a = some w.target.branch) :
      Switching w [(.askHead, a)] (.ok ())
  | switched (a b : Answer) (other : Checkout.named? a ≠ some w.target.branch)
      (agrees : r.isOk = succeeded b) : Switching w [(.askHead, a), (.switch, b)] r

/-- How the branch comes to have what the remote has. -/
inductive Updating : List Answered → Except Fault Unit → Prop
  | lost (e : LaunchError) (f : Fault) : Updating [(.seekRemote, .error e)] (.error f)
  | alone (o : GitOutput) (absent : o.success = false) : Updating [(.seekRemote, .ok o)] (.ok ())
  | pulled (o : GitOutput) (a : Answer) (there : o.success = true)
      (agrees : r.isOk = succeeded a) : Updating [(.seekRemote, .ok o), (.pull, a)] r

/-- How a branch comes to be that is not there. -/
inductive Founding : List Answered → Except Fault Unit → Prop
  | lost (e : LaunchError) (f : Fault) : Founding [(.seekRemote, .error e)] (.error f)
  | followed (o : GitOutput) (a : Answer) (there : o.success = true)
      (agrees : r.isOk = succeeded a) : Founding [(.seekRemote, .ok o), (.follow, a)] r
  | created (o : GitOutput) (a : Answer) (absent : o.success = false)
      (agrees : r.isOk = succeeded a) : Founding [(.seekRemote, .ok o), (.create, a)] r

/-- The ways of an attempt in a checkout that is there. -/
inductive Course (w : Workspace) : List Answered → Except Fault Unit → Prop
  | unfetched (a : Answer) (f : Fault) (bad : succeeded a = false) :
      Course w [(.fetch, a)] (.error f)
  | lost (a : Answer) (e : LaunchError) (f : Fault) (good : succeeded a = true) :
      Course w [(.fetch, a), (.seekLocal, .error e)] (.error f)
  | stuck (a : Answer) (o : GitOutput) (good : succeeded a = true) (there : o.success = true)
      (switching : w.Switching xs (.error f)) :
      Course w ((.fetch, a) :: (.seekLocal, .ok o) :: xs) (.error f)
  | kept (a : Answer) (o : GitOutput) (good : succeeded a = true) (there : o.success = true)
      (switching : w.Switching xs (.ok ())) (updating : Updating ys r) :
      Course w ((.fetch, a) :: (.seekLocal, .ok o) :: (xs ++ ys)) r
  | founded (a : Answer) (o : GitOutput) (good : succeeded a = true) (absent : o.success = false)
      (founding : Founding xs r) :
      Course w ((.fetch, a) :: (.seekLocal, .ok o) :: xs) r

/-- What comes before: there is a checkout, or it is cloned. -/
inductive Opening (w : Workspace) :
    Bool → Option (String × Except FileError Unit) → List Answered → Except Fault Unit → Prop
  | there : Opening w true none [] (.ok ())
  | nowhere (unset : w.url = none) : Opening w false none [] (.error f)
  | noRoom (set : w.url.isSome) : Opening w false (some (p, .error e)) [] (.error f)
  | cloned (set : w.url.isSome) (room : ∀ d ∈ parent, d.2 = .ok ())
      (agrees : r.isOk = succeeded a) : Opening w false parent [(.clone, a)] r

variable {w : Workspace} {es : List GitEvent} {r : Except Fault Unit}

theorem yields_isOnBranch {r : Except Fault Bool} (h : GitAction.Yields w.isOnBranch es r) :
    ∃ a, es = [w.event (.askHead, a)] ∧
      r = .ok (decide (Checkout.named? a = some w.target.branch)) := by
  rcases GitAction.Yields.of_tryCatch h with ⟨here, asked, rfl⟩ | ⟨es₁, e, es₂, rfl, asked, rest⟩
  · obtain ⟨e, -, impossible⟩ | ⟨es₁, name, es₂, rfl, first, second⟩ :=
      GitAction.Yields.of_bind asked
    · cases impossible
    · obtain ⟨rfl, same⟩ := second.of_pure
      cases same
      obtain ⟨a, rfl, named⟩ := Checkout.yields_currentBranch first
      exact ⟨a, rfl, by simp [← named, Except.toOption]⟩
  · obtain ⟨rfl, rfl⟩ := rest.of_pure
    rcases GitAction.Yields.of_bind asked with ⟨e, first, -⟩ | ⟨es₁, name, es₂, rfl, -, second⟩
    · obtain ⟨a, rfl, named⟩ := Checkout.yields_currentBranch first
      exact ⟨a, rfl, by simp [← named, Except.toOption]⟩
    · obtain ⟨-, impossible⟩ := second.of_pure
      cases impossible

theorem yields_switch (h : GitAction.Yields w.switch es r) :
    ∃ xs, es = xs.map w.event ∧ w.Switching xs r := by
  rcases GitAction.Yields.of_bind h with ⟨e, first, -⟩ | ⟨es₁, here, es₂, rfl, first, second⟩
  · obtain ⟨a, -, done⟩ := yields_isOnBranch first
    cases done
  · obtain ⟨a, rfl, told⟩ := yields_isOnBranch first
    by_cases named : Checkout.named? a = some w.target.branch
    · simp only [named, decide_true, Except.ok.injEq] at told
      subst told
      obtain ⟨rfl, rfl⟩ := second.of_pure
      exact ⟨[(.askHead, a)], rfl, .already a named⟩
    · simp only [named, decide_false, Except.ok.injEq] at told
      subst told
      obtain ⟨b, rfl, agrees⟩ := Checkout.yields_perform second
      exact ⟨[(.askHead, a), (.switch, b)], rfl, .switched a b named agrees⟩

theorem yields_updating
    (h : GitAction.Yields (do
      if ← w.checkout.hasRemoteBranch w.target.remote w.target.branch then w.checkout.pull) es r) :
    ∃ xs, es = xs.map w.event ∧ Updating xs r := by
  obtain ⟨a, more, rfl, ⟨e, f, rfl, rfl, rfl⟩ | ⟨o, rfl, rest⟩⟩ := Checkout.yields_seek h
  · exact ⟨[(.seekRemote, .error e)], rfl, .lost e f⟩
  · cases found : o.success with
    | false =>
      rw [found] at rest
      obtain ⟨rfl, rfl⟩ := rest.of_pure
      exact ⟨[(.seekRemote, .ok o)], rfl, .alone o found⟩
    | true =>
      rw [found] at rest
      obtain ⟨b, rfl, agrees⟩ := Checkout.yields_perform rest
      exact ⟨[(.seekRemote, .ok o), (.pull, b)], rfl, .pulled o b found agrees⟩

theorem yields_founding
    (h : GitAction.Yields (do
      if ← w.checkout.hasRemoteBranch w.target.remote w.target.branch then
        w.checkout.createTracking w.target.branch w.target.text
      else w.checkout.createBranch w.target.branch) es r) :
    ∃ xs, es = xs.map w.event ∧ Founding xs r := by
  obtain ⟨a, more, rfl, ⟨e, f, rfl, rfl, rfl⟩ | ⟨o, rfl, rest⟩⟩ := Checkout.yields_seek h
  · exact ⟨[(.seekRemote, .error e)], rfl, .lost e f⟩
  · cases found : o.success with
    | false =>
      rw [found] at rest
      obtain ⟨b, rfl, agrees⟩ := Checkout.yields_perform rest
      exact ⟨[(.seekRemote, .ok o), (.create, b)], rfl, .created o b found agrees⟩
    | true =>
      rw [found] at rest
      obtain ⟨b, rfl, agrees⟩ := Checkout.yields_perform rest
      exact ⟨[(.seekRemote, .ok o), (.follow, b)], rfl, .followed o b found agrees⟩

theorem yields_makeParent {c : Checkout} {r : Except Fault Unit}
    (h : GitAction.Yields c.makeParent es r) :
    ∃ parent : Option (String × Except FileError Unit),
      es = parent.toList.map (fun d => .makeDirectories d.1 d.2) ∧
      ((r = .ok () ∧ ∀ d ∈ parent, d.2 = .ok ()) ∨
        r.isOk = false ∧ ∃ p e, parent = some (p, .error e)) := by
  rw [Checkout.makeParent] at h
  split at h
  · obtain ⟨rfl, rfl⟩ := h.of_pure
    exact ⟨none, rfl, .inl ⟨rfl, by simp⟩⟩
  · rename_i p _
    cases h with
    | makeDirectories answer rest =>
      cases rest
      refine ⟨some (p, answer), rfl, ?_⟩
      cases answer with
      | ok _ => exact .inl ⟨rfl, by simp⟩
      | error e => exact .inr ⟨rfl, p, e, rfl⟩

theorem yields_clone {c : Checkout} {u : String} {r : Except Fault Unit}
    (h : GitAction.Yields (c.clone u) es r) :
    ∃ parent : Option (String × Except FileError Unit),
      (es = parent.toList.map (fun d => .makeDirectories d.1 d.2) ∧ r.isOk = false ∧
        ∃ p e, parent = some (p, .error e)) ∨
      ∃ a, es = parent.toList.map (fun d => .makeDirectories d.1 d.2) ++
          [.command none ["clone", u, c.workdir] a] ∧
        (∀ d ∈ parent, d.2 = .ok ()) ∧ r.isOk = succeeded a := by
  rcases GitAction.Yields.of_bind h with ⟨f, made, rfl⟩ | ⟨es₁, _, es₂, rfl, made, rest⟩
  · obtain ⟨parent, rfl, ⟨impossible, -⟩ | ⟨-, failed⟩⟩ := yields_makeParent made
    · cases impossible
    · exact ⟨parent, .inl ⟨rfl, rfl, failed⟩⟩
  · obtain ⟨parent, rfl, ⟨-, room⟩ | ⟨impossible, -⟩⟩ := yields_makeParent made
    · obtain ⟨a, rfl, ⟨o, rfl, good, rfl⟩ | ⟨bad, f, rfl⟩⟩ :=
        GitAction.Yields.of_required (fun _ => ()) rest
      · exact ⟨parent, .inr ⟨_, rfl, room, good.symm⟩⟩
      · exact ⟨parent, .inr ⟨a, rfl, room, bad.symm⟩⟩
    · cases impossible

theorem yields_isPresent {c : Checkout} {r : Except Fault Bool}
    (h : GitAction.Yields (liftM c.isPresent) es r) :
    ∃ there, es = [.present (Path.join c.workdir ".git") there] ∧ r = .ok there := by
  cases h with
  | present there rest =>
    cases rest
    exact ⟨there, rfl, rfl⟩

theorem yields_cloneIfMissing (h : GitAction.Yields w.cloneIfMissing es r) :
    ∃ there parent xs, es = w.events there parent xs ∧ w.Opening there parent xs r := by
  rcases GitAction.Yields.of_bind h with ⟨f, asked, -⟩ | ⟨es₁, there, es₂, rfl, asked, rest⟩
  · obtain ⟨there, -, impossible⟩ := yields_isPresent asked
    cases impossible
  · obtain ⟨there, rfl, same⟩ := yields_isPresent asked
    cases same
    cases there with
    | true =>
      obtain ⟨rfl, rfl⟩ := rest.of_pure
      exact ⟨true, none, [], rfl, .there⟩
    | false =>
      rw [if_neg Bool.false_ne_true] at rest
      cases set : w.url with
      | none =>
        rw [set] at rest
        obtain ⟨rfl, rfl⟩ := rest.of_pure
        exact ⟨false, none, [], rfl, .nowhere set⟩
      | some u =>
        rw [set] at rest
        have isSome : w.url.isSome = true := by rw [set]; rfl
        obtain ⟨parent, ⟨rfl, failed, p, e, rfl⟩ | ⟨a, rfl, room, agrees⟩⟩ := yields_clone rest
        · cases r with
          | ok _ => cases failed
          | error f => exact ⟨false, _, [], rfl, .noRoom isSome⟩
        · refine ⟨false, parent, [(.clone, a)], ?_, .cloned isSome room agrees⟩
          simp [events, event, Step.arguments, Step.place, set]

theorem events_append (w : Workspace) (there : Bool)
    (parent : Option (String × Except FileError Unit)) (xs ys : List Answered) :
    w.events there parent xs ++ ys.map w.event = w.events there parent (xs ++ ys) := by
  simp [events]

theorem yields_inCheckout
    (h : GitAction.Yields (do
      w.checkout.fetch w.target.remote
      if ← w.checkout.hasBranch w.target.branch then
        w.switch
        if ← w.checkout.hasRemoteBranch w.target.remote w.target.branch then w.checkout.pull
      else if ← w.checkout.hasRemoteBranch w.target.remote w.target.branch then
        w.checkout.createTracking w.target.branch w.target.text
      else w.checkout.createBranch w.target.branch) es r) :
    ∃ xs, es = xs.map w.event ∧ w.Course xs r := by
  rcases GitAction.Yields.of_bind h with ⟨f, fetch, rfl⟩ | ⟨es₁, _, es₂, rfl, fetch, sought⟩
  · obtain ⟨a, rfl, bad⟩ := Checkout.yields_perform fetch
    exact ⟨[(.fetch, a)], rfl, .unfetched a f bad.symm⟩
  obtain ⟨a, rfl, good⟩ := Checkout.yields_perform fetch
  obtain ⟨b, more, rfl, ⟨e, f, rfl, rfl, rfl⟩ | ⟨o, rfl, rest⟩⟩ := Checkout.yields_seek sought
  · exact ⟨[(.fetch, a), (.seekLocal, .error e)], rfl, .lost a e f good.symm⟩
  cases found : o.success with
  | false =>
    rw [found] at rest
    obtain ⟨xs, rfl, founding⟩ := yields_founding rest
    exact ⟨(.fetch, a) :: (.seekLocal, .ok o) :: xs, rfl, .founded a o good.symm found founding⟩
  | true =>
    rw [found] at rest
    rcases GitAction.Yields.of_bind rest with ⟨f, switch, rfl⟩ | ⟨es₁, _, es₂, rfl, switch, update⟩
    · obtain ⟨xs, rfl, switching⟩ := yields_switch switch
      exact ⟨(.fetch, a) :: (.seekLocal, .ok o) :: xs, rfl, .stuck a o good.symm found switching⟩
    · obtain ⟨xs, rfl, switching⟩ := yields_switch switch
      obtain ⟨ys, rfl, updating⟩ := yields_updating update
      refine ⟨(.fetch, a) :: (.seekLocal, .ok o) :: (xs ++ ys), ?_,
        .kept a o good.symm found switching updating⟩
      rw [← List.map_append]
      rfl

/-- An attempt ends before there is a checkout, or goes on in it. -/
theorem yields_setUp (h : GitAction.Yields w.setUp es r) :
    ∃ there parent xs, (es = w.events there parent xs ∧ w.Opening there parent xs r ∧
        r.isOk = false) ∨
      ∃ ys, es = w.events there parent (xs ++ ys) ∧ w.Opening there parent xs (.ok ()) ∧
        w.Course ys r := by
  rcases GitAction.Yields.of_bind h with ⟨f, first, rfl⟩ | ⟨es₁, _, es₂, rfl, first, rest⟩
  · obtain ⟨there, parent, xs, rfl, opening⟩ := yields_cloneIfMissing first
    exact ⟨there, parent, xs, .inl ⟨rfl, opening, rfl⟩⟩
  · obtain ⟨there, parent, xs, rfl, opening⟩ := yields_cloneIfMissing first
    obtain ⟨ys, rfl, course⟩ := yields_inCheckout rest
    exact ⟨there, parent, xs, .inr ⟨ys, events_append .., opening, course⟩⟩

end Workspace

end Foreman

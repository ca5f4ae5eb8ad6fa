import Foreman.Proofs.Git.Attempt

namespace Foreman

namespace Workspace

/-- Whether an answer ends the attempt. That a reference is not there, and that the branch which is
checked out cannot be told, is mere information. -/
def breaks : Answered → Bool
  | (.askHead, _) => false
  | (.seekLocal, a) | (.seekRemote, a) => !a.isOk
  | (_, a) => !succeeded a

/-- The attempt ends with the first answer that breaks it, and fails; without one it succeeds. -/
def Heeds : List Answered → Except Fault Unit → Prop
  | [], r => r = .ok ()
  | x :: xs, r => if breaks x then xs = [] ∧ r.isOk = false else Heeds xs r

/-- Git has told whether a reference is there. -/
def Reports (s : Step) (there : Bool) (xs : List Answered) : Prop :=
  ∃ o, (s, .ok o) ∈ xs ∧ o.success = there

/-- What an answer says about the branch that is checked out: nothing, or which one it is, as far as
that can be told. -/
def evidence (w : Workspace) : Answered → Option (Option String)
  | (.askHead, a) => some (Checkout.named? a)
  | (.switch, a) | (.follow, a) | (.create, a) =>
    some (if succeeded a then some w.target.branch else none)
  | _ => none

/-- The branch that is checked out by the last evidence of it. -/
def head? (w : Workspace) (xs : List Answered) : Option String :=
  (xs.filterMap w.evidence).getLast?.join

/-- Whether a step may follow on others. -/
def Allows (w : Workspace) (before : List Answered) : Step → Prop
  | .clone => before = []
  | .fetch => ∀ x ∈ before, x.1 = .clone
  | .seekLocal | .seekRemote | .askHead | .switch => ∃ a, (.fetch, a) ∈ before
  | .follow | .create => Reports .seekLocal false before
  | .pull =>
    Reports .seekLocal true before ∧ Reports .seekRemote true before ∧
      w.head? before = some w.target.branch

/-- There is nothing to work in, and nothing can be cloned: no one says from where, or there is no
room for it. -/
def Blocked (w : Workspace) (there : Bool) (parent : Option (String × Except FileError Unit)) :
    Prop :=
  there = false ∧ w.url = none ∨ ∃ p e, parent = some (p, .error e)

/-- An attempt to prepare the checkout, with its questions and its result. -/
structure Attempt (w : Workspace) (events : List GitEvent) (result : Except Fault Unit) where
  /-- Whether there is a checkout. -/
  there : Bool
  /-- The directory that was asked for to clone into. -/
  parent : Option (String × Except FileError Unit)
  steps : List Answered
  asked : events = w.events there parent steps
  /-- Only what is missing is cloned, and only from somewhere. -/
  missing : parent.isSome ∨ (∃ a, (.clone, a) ∈ steps) → there = false ∧ w.url.isSome
  /-- Where there is a checkout, or one has been cloned, it is fetched. -/
  fetched : there = true ∨ (∃ a, (.clone, a) ∈ steps ∧ succeeded a = true) →
    ∃ a, (.fetch, a) ∈ steps
  allowed : ∀ before x after, steps = before ++ x :: after → w.Allows before x.1
  once : (steps.map (·.1)).Nodup
  blocked : w.Blocked there parent → steps = [] ∧ result.isOk = false
  heeds : ¬ w.Blocked there parent → Heeds steps result
  lands : result = .ok () → w.head? steps = some w.target.branch
  pulls : Reports .seekLocal true steps → Reports .seekRemote true steps → ∃ a, (.pull, a) ∈ steps

variable {w : Workspace} {r : Except Fault Unit}

/-- Each step is allowed after those before it. -/
def Orderly (w : Workspace) : List Answered → List Answered → Prop
  | _, [] => True
  | before, x :: xs => w.Allows before x.1 ∧ w.Orderly (before ++ [x]) xs

variable {before xs ys : List Answered}

theorem orderly_append :
    w.Orderly before (xs ++ ys) ↔ w.Orderly before xs ∧ w.Orderly (before ++ xs) ys := by
  induction xs generalizing before with
  | nil => simp [Orderly]
  | cons x xs ih => simp [Orderly, ih, and_assoc]

theorem Orderly.allows (h : w.Orderly before (xs ++ x :: ys)) : w.Allows (before ++ xs) x.1 :=
  (orderly_append.1 h).2.1

theorem Reports.append (h : Reports s there xs) (ys : List Answered) :
    Reports s there (xs ++ ys) := by
  obtain ⟨o, ho, found⟩ := h
  exact ⟨o, List.mem_append_left ys ho, found⟩

theorem Heeds.append (clean : Heeds xs (.ok ())) (h : Heeds ys r) : Heeds (xs ++ ys) r := by
  induction xs with
  | nil => exact h
  | cons x xs ih =>
    rw [Heeds] at clean
    split at clean
    · obtain ⟨-, failed⟩ := clean
      cases failed
    · rename_i whole
      rw [List.cons_append, Heeds, if_neg whole]
      exact ih clean

theorem head?_append_silent (none : ∀ x ∈ ys, w.evidence x = none) (xs : List Answered) :
    w.head? (xs ++ ys) = w.head? xs := by
  have nothing : ys.filterMap w.evidence = [] := List.filterMap_eq_nil_iff.2 none
  rw [head?, List.filterMap_append, nothing, List.append_nil, head?]

theorem head?_append_told (told : w.evidence x = some b) (xs : List Answered) :
    w.head? (xs ++ [x]) = b := by
  simp [head?, told]

theorem Switching.lands (h : w.Switching xs (.ok ())) (before : List Answered) :
    w.head? (before ++ xs) = some w.target.branch := by
  cases h with
  | already a named => rw [head?_append_told rfl, named]
  | switched a b other agrees =>
    have good : succeeded b = true := agrees.symm
    rw [List.append_cons, head?_append_told rfl, if_pos good]

theorem Updating.lands (h : Updating xs r) (here : w.head? before = some w.target.branch) :
    w.head? (before ++ xs) = some w.target.branch := by
  rw [head?_append_silent ?_, here]
  cases h <;> simp [evidence]

theorem Founding.lands (h : Founding xs (.ok ())) (before : List Answered) :
    w.head? (before ++ xs) = some w.target.branch := by
  cases h with
  | followed o a _ agrees | created o a _ agrees =>
    have good : succeeded a = true := agrees.symm
    rw [List.append_cons, head?_append_told rfl, if_pos good]

theorem Course.lands (h : w.Course xs (.ok ())) (before : List Answered) :
    w.head? (before ++ xs) = some w.target.branch := by
  cases h with
  | kept a o good there switching updating =>
    rw [List.append_cons, List.append_cons, ← List.append_assoc]
    exact updating.lands (switching.lands _)
  | founded a o good absent founding =>
    rw [List.append_cons, List.append_cons]
    exact founding.lands _

theorem heeds_singleton (agrees : r.isOk = !breaks x) : Heeds [x] r := by
  rw [Heeds]
  cases r with
  | ok _ =>
    have whole : breaks x = false := by simpa [Except.isOk, Except.toBool] using agrees
    rw [if_neg (by simp [whole])]
    rfl
  | error f =>
    have broken : breaks x = true := by simpa [Except.isOk, Except.toBool] using agrees
    rw [if_pos broken]
    exact ⟨rfl, rfl⟩

theorem heeds_cons (whole : breaks x = false) : Heeds (x :: xs) r ↔ Heeds xs r := by
  rw [Heeds, if_neg (by simp [whole])]

theorem heeds_required (required : breaks x = !succeeded x.2) (agrees : r.isOk = succeeded x.2) :
    Heeds [x] r :=
  heeds_singleton (by rw [required, agrees, Bool.not_not])

theorem Switching.heeds (h : w.Switching xs r) : Heeds xs r := by
  cases h with
  | already a named => exact heeds_singleton rfl
  | switched a b other agrees => exact (heeds_cons rfl).2 (heeds_required rfl agrees)

theorem Updating.heeds (h : Updating xs r) : Heeds xs r := by
  cases h with
  | lost e f => exact heeds_singleton rfl
  | alone o absent => exact heeds_singleton rfl
  | pulled o a there agrees => exact (heeds_cons rfl).2 (heeds_required rfl agrees)

theorem Founding.heeds (h : Founding xs r) : Heeds xs r := by
  cases h with
  | lost e f => exact heeds_singleton rfl
  | followed o a there agrees => exact (heeds_cons rfl).2 (heeds_required rfl agrees)
  | created o a absent agrees => exact (heeds_cons rfl).2 (heeds_required rfl agrees)

theorem breaks_fetch (good : succeeded a = true) : breaks (.fetch, a) = false := by
  simp [breaks, good]

theorem Course.heeds (h : w.Course xs r) : Heeds xs r := by
  cases h with
  | unfetched a f bad => exact heeds_required rfl bad.symm
  | lost a e f good => exact (heeds_cons (breaks_fetch good)).2 (heeds_singleton rfl)
  | stuck a o good there switching =>
    exact (heeds_cons (breaks_fetch good)).2 ((heeds_cons rfl).2 switching.heeds)
  | kept a o good there switching updating =>
    have rest := switching.heeds.append updating.heeds
    exact (heeds_cons (breaks_fetch good)).2 ((heeds_cons rfl).2 rest)
  | founded a o good absent founding =>
    exact (heeds_cons (breaks_fetch good)).2 ((heeds_cons rfl).2 founding.heeds)

theorem Switching.orderly (h : w.Switching xs r) (fetched : ∃ a, (.fetch, a) ∈ before) :
    w.Orderly before xs := by
  cases h with
  | already a named => exact ⟨fetched, trivial⟩
  | switched a b other agrees =>
    exact ⟨fetched, fetched.imp fun _ => List.mem_append_left _, trivial⟩

theorem Updating.orderly (h : Updating xs r) (fetched : ∃ a, (.fetch, a) ∈ before)
    (found : Reports .seekLocal true before) (here : w.head? before = some w.target.branch) :
    w.Orderly before xs := by
  cases h with
  | lost e f => exact ⟨fetched, trivial⟩
  | alone o absent => exact ⟨fetched, trivial⟩
  | pulled o a there agrees =>
    have silent : w.head? (before ++ [(.seekRemote, .ok o)]) = w.head? before :=
      head?_append_silent (by simp [evidence]) before
    have both : Reports .seekRemote true (before ++ [(.seekRemote, .ok o)]) :=
      ⟨o, List.mem_concat_self, there⟩
    exact ⟨fetched, ⟨found.append _, both, silent.trans here⟩, trivial⟩

theorem Founding.orderly (h : Founding xs r) (fetched : ∃ a, (.fetch, a) ∈ before)
    (missing : Reports .seekLocal false before) : w.Orderly before xs := by
  cases h with
  | lost e f => exact ⟨fetched, trivial⟩
  | followed o a there agrees => exact ⟨fetched, missing.append _, trivial⟩
  | created o a absent agrees => exact ⟨fetched, missing.append _, trivial⟩

theorem Course.orderly (h : w.Course xs r) (first : ∀ x ∈ before, x.1 = .clone) :
    w.Orderly before xs := by
  have fetched (a : Answer) : ∃ b, (.fetch, b) ∈ before ++ [(.fetch, a)] :=
    ⟨a, List.mem_concat_self⟩
  have fetched' (a b : Answer) : ∃ c, (.fetch, c) ∈ before ++ [(.fetch, a)] ++ [(.seekLocal, b)] :=
    ⟨a, List.mem_append_left _ List.mem_concat_self⟩
  have told (a : Answer) (o : GitOutput) :
      Reports .seekLocal o.success (before ++ [(.fetch, a)] ++ [(.seekLocal, .ok o)]) :=
    ⟨o, List.mem_concat_self, rfl⟩
  cases h with
  | unfetched a f bad => exact ⟨first, trivial⟩
  | lost a e f good => exact ⟨first, fetched a, trivial⟩
  | stuck a o good there switching =>
    exact ⟨first, fetched a, switching.orderly (fetched' a _)⟩
  | kept a o good there switching updating =>
    refine ⟨first, fetched a, orderly_append.2 ⟨switching.orderly (fetched' a _), ?_⟩⟩
    apply updating.orderly ((fetched' a _).imp fun _ => List.mem_append_left _) _
      (switching.lands _)
    exact (there ▸ told a o).append _
  | founded a o good absent founding =>
    exact ⟨first, fetched a, founding.orderly (fetched' a _) (absent ▸ told a o)⟩

theorem Updating.pulls (h : Updating xs r) (found : Reports .seekRemote true xs) :
    ∃ a, (.pull, a) ∈ xs := by
  cases h with
  | lost e f => simp [Reports] at found
  | alone o absent => simp [Reports, absent] at found
  | pulled o a there agrees => exact ⟨a, by simp⟩

theorem Course.pulls (h : w.Course xs r) (here : Reports .seekLocal true xs)
    (there : Reports .seekRemote true xs) : ∃ a, (.pull, a) ∈ xs := by
  cases h with
  | unfetched a f bad => simp [Reports] at here
  | lost a e f good => simp [Reports] at here
  | stuck a o good found switching => cases switching; simp [Reports] at there
  | kept a o good found switching updating =>
    obtain ⟨o', ho, told⟩ := there
    have inside : Reports .seekRemote true _ := ⟨o', by cases switching <;> simpa using ho, told⟩
    obtain ⟨b, hb⟩ := updating.pulls inside
    exact ⟨b, by simp [hb]⟩
  | founded a o good absent founding => cases founding <;> simp [Reports, absent] at here

theorem Course.exists_fetch (h : w.Course xs r) : ∃ a, (.fetch, a) ∈ xs := by
  cases h <;> exact ⟨_, List.mem_cons_self⟩

/-- No step is taken twice, and none of them clones. -/
theorem Course.once (h : w.Course xs r) : (Step.clone :: xs.map (·.1)).Nodup := by
  cases h with
  | unfetched | lost => simp
  | stuck a o good there switching => cases switching; simp
  | kept a o good there switching updating => cases switching <;> cases updating <;> simp
  | founded a o good absent founding => cases founding <;> simp

variable {there : Bool} {parent : Option (String × Except FileError Unit)}

theorem Opening.clones (h : w.Opening there parent xs r) : ∀ x ∈ xs, x.1 = .clone := by
  cases h <;> simp

theorem Opening.once (h : w.Opening there parent xs r) : (xs.map (·.1)).Sublist [.clone] := by
  cases h <;> simp

theorem Opening.orderly (h : w.Opening there parent xs r) : w.Orderly [] xs := by
  cases h with
  | there | nowhere | noRoom => trivial
  | cloned set room agrees => exact ⟨rfl, trivial⟩

theorem Opening.missing (h : w.Opening there parent xs r)
    (cloning : parent.isSome ∨ ∃ a, (.clone, a) ∈ xs) : there = false ∧ w.url.isSome := by
  cases h with
  | there | nowhere => simp at cloning
  | noRoom set | cloned set => exact ⟨rfl, set⟩

theorem Opening.blocked (h : w.Opening there parent xs r) (blocked : w.Blocked there parent) :
    xs = [] ∧ r.isOk = false := by
  cases h with
  | there => simp [Blocked] at blocked
  | nowhere | noRoom => exact ⟨rfl, rfl⟩
  | cloned set room agrees =>
    rcases blocked with ⟨-, unset⟩ | ⟨p, e, rfl⟩
    · simp [unset] at set
    · cases room _ rfl

theorem Opening.heeds (h : w.Opening there parent xs r) (free : ¬ w.Blocked there parent) :
    Heeds xs r := by
  cases h with
  | there => rfl
  | nowhere unset => exact (free (.inl ⟨rfl, unset⟩)).elim
  | noRoom set => exact (free (.inr ⟨_, _, rfl⟩)).elim
  | cloned set room agrees => exact heeds_required rfl agrees

theorem Opening.not_ready (h : w.Opening there parent xs (.error f)) :
    ¬ (there = true ∨ ∃ a, (.clone, a) ∈ xs ∧ succeeded a = true) := by
  cases h with
  | nowhere | noRoom => simp
  | cloned set room agrees =>
    have bad : succeeded _ = false := agrees.symm
    simp [bad]

theorem allowed_of_orderly (h : w.Orderly [] xs) :
    ∀ before x after, xs = before ++ x :: after → w.Allows before x.1 := by
  rintro before x after rfl
  exact h.allows

theorem Opening.attempt (h : w.Opening there parent xs (.error f)) :
    Nonempty (w.Attempt (w.events there parent xs) (.error f)) := by
  refine ⟨⟨there, parent, xs, rfl, h.missing, fun ready => (h.not_ready ready).elim,
    allowed_of_orderly h.orderly, h.once.nodup (by simp), h.blocked, h.heeds, nofun, ?_⟩⟩
  rintro ⟨o, ho, -⟩
  cases h.clones _ ho

theorem Course.attempt (h : w.Course ys r) (opening : w.Opening there parent xs (.ok ())) :
    Nonempty (w.Attempt (w.events there parent (xs ++ ys)) r) := by
  have clones := opening.clones
  have free : ¬ w.Blocked there parent := fun blocked => nomatch (opening.blocked blocked).2
  have later {s : Step} {a : Answer} (ne : s ≠ .clone) (ha : (s, a) ∈ xs ++ ys) : (s, a) ∈ ys :=
    (List.mem_append.1 ha).resolve_left fun inside => ne (clones _ inside)
  have once : ((xs ++ ys).map (·.1)).Nodup := by
    rw [List.map_append]
    exact (opening.once.append (List.Sublist.refl _)).nodup h.once
  refine ⟨⟨there, parent, xs ++ ys, rfl, ?_, fun _ => ?_, ?_, once,
    fun blocked => (free blocked).elim, fun _ => (opening.heeds free).append h.heeds, ?_, ?_⟩⟩
  · rintro (made | ⟨a, ha⟩)
    · exact opening.missing (.inl made)
    · rcases List.mem_append.1 ha with inside | later
      · exact opening.missing (.inr ⟨a, inside⟩)
      · exact ((List.nodup_cons.1 h.once).1 (List.mem_map_of_mem later)).elim
  · exact h.exists_fetch.imp fun _ => List.mem_append_right xs
  · exact allowed_of_orderly (orderly_append.2 ⟨opening.orderly, h.orderly clones⟩)
  · rintro rfl
    exact h.lands xs
  · rintro ⟨o, ho, here⟩ ⟨o', ho', there⟩
    obtain ⟨a, ha⟩ := h.pulls ⟨o, later nofun ho, here⟩ ⟨o', later nofun ho', there⟩
    exact ⟨a, List.mem_append_right xs ha⟩

/-- Whatever git answers, what is asked of it is an attempt. -/
theorem attempt_of_yields (h : GitAction.Yields w.setUp es r) : Nonempty (w.Attempt es r) := by
  obtain ⟨there, parent, xs, ⟨rfl, opening, failed⟩ | ⟨ys, rfl, opening, course⟩⟩ := yields_setUp h
  · cases r with
    | ok _ => cases failed
    | error f => exact opening.attempt
  · exact course.attempt opening

/-- A call to prepare the checkout. -/
structure Call where
  events : List GitEvent
  result : Except Fault Unit

/-- Calls one after another. Before each of them others do as they like with the world. -/
def calls (w : Workspace) (h : GitHost σ) : List (σ → σ) → Bool → σ → List Call
  | [], _, _ => []
  | meanwhile :: more, ready, world =>
    let call := w.prepare ready
    let answer := call.run h (meanwhile world)
    ⟨call.log h (meanwhile world), answer.1.1⟩ :: w.calls h more answer.1.2 answer.2

theorem yields_prepare {ready : Bool} (h : (w.prepare false).Yields es (r, ready)) :
    Nonempty (w.Attempt es r) ∧ ready = r.isOk := by
  obtain ⟨es₁, r', es₂, rfl, attempt, rest⟩ := GitProgram.Yields.of_bind h
  have tried : Nonempty (w.Attempt es₁ r') := attempt_of_yields attempt
  cases r' with
  | ok _ | error f =>
    obtain ⟨rfl, same⟩ := rest.of_pure
    cases same
    rw [List.append_nil]
    exact ⟨tried, rfl⟩

theorem length_calls (w : Workspace) (h : GitHost σ) (meanwhile : List (σ → σ)) (ready : Bool)
    (world : σ) : (w.calls h meanwhile ready world).length = meanwhile.length := by
  induction meanwhile generalizing ready world with
  | nil => rfl
  | cons _ more ih => exact congrArg (· + 1) (ih _ _)

theorem calls_ready (w : Workspace) (h : GitHost σ) (meanwhile : List (σ → σ)) (world : σ) :
    ∀ c ∈ w.calls h meanwhile true world, c = ⟨[], .ok ()⟩ := by
  induction meanwhile generalizing world with
  | nil => exact List.forall_mem_nil _
  | cons _ more ih => exact List.forall_mem_cons.2 ⟨rfl, ih _⟩

/-- A call is an attempt as long as none has succeeded, and asks for nothing after that. -/
theorem calls_split {past : List Call} {h : GitHost σ} {meanwhile : List (σ → σ)} {world : σ}
    (split : w.calls h meanwhile false world = past ++ c :: future) :
    ((∃ b ∈ past, b.result = .ok ()) ∧ c = ⟨[], .ok ()⟩) ∨
      (∀ b ∈ past, b.result ≠ .ok ()) ∧ Nonempty (w.Attempt c.events c.result) := by
  induction meanwhile generalizing world past with
  | nil =>
    rw [calls] at split
    cases past <;> cases split
  | cons m more ih =>
    obtain ⟨tried, ready⟩ := yields_prepare (GitProgram.yields_run h (w.prepare false) (m world))
    rw [calls, ready] at split
    cases past with
    | nil =>
      obtain ⟨rfl, -⟩ := List.cons.inj split
      exact .inr ⟨List.forall_mem_nil _, tried⟩
    | cons b past =>
      obtain ⟨rfl, rest⟩ := List.cons.inj split
      cases result : ((w.prepare false).run h (m world)).1.1 with
      | ok _ =>
        rw [result] at rest
        have later : w.calls h more true _ = past ++ c :: future := rest
        have inside : c ∈ w.calls h more true _ :=
          later ▸ List.mem_append_right past List.mem_cons_self
        have none := calls_ready w h more _ c inside
        exact .inl ⟨⟨_, List.mem_cons_self, rfl⟩, none⟩
      | error f =>
        rw [result] at rest
        rcases ih rest with ⟨⟨b, hb, done⟩, none⟩ | ⟨failed, again⟩
        · exact .inl ⟨⟨b, List.mem_cons_of_mem _ hb, done⟩, none⟩
        · exact .inr ⟨List.forall_mem_cons.2 ⟨nofun, failed⟩, again⟩

/-- Of calls that follow on each other, whatever git answers and others do in between, each one is
an attempt of its own until one has succeeded, and asks for nothing after that. -/
theorem calls_memoised (w : Workspace) (h : GitHost σ) (meanwhile : List (σ → σ)) (world : σ) :
    (w.calls h meanwhile false world).length = meanwhile.length ∧
      Function.Injective (Step.arguments w) ∧
      ∀ past c future, w.calls h meanwhile false world = past ++ c :: future →
        ((∃ b ∈ past, b.result = .ok ()) ∧ c = ⟨[], .ok ()⟩) ∨
        (∀ b ∈ past, b.result ≠ .ok ()) ∧ Nonempty (w.Attempt c.events c.result) :=
  ⟨length_calls w h meanwhile false world, arguments_injective w, fun _ _ _ => calls_split⟩

/-- Git that gives these answers one after another. -/
def scripted : GitHost (List Answer) where
  present _ _ := true
  makeDirectories _ script := (.ok (), script)
  command _ _ script := (script.headD (.error .zeroByte), script.tail)

/-- The first call fails with its fetch, the second one goes to the branch and pulls, and the third
one has nothing left to do. -/
theorem calls_after_failed_fetch :
    let w : Workspace := ⟨⟨"ws"⟩, none, ⟨"origin", "topic"⟩⟩
    let good (text : String) : Answer := .ok ⟨true, text, ""⟩
    let bad : Answer := .ok ⟨false, "", "no route to host"⟩
    let script := [bad, good "", good "", good "main\n", good "", good "", good ""]
    ∃ first second third, w.calls scripted [id, id, id] false script = [first, second, third] ∧
      first.result.isOk = false ∧ Nonempty (w.Attempt second.events second.result) ∧
      second.result = .ok () ∧ third = ⟨[], .ok ()⟩ := by
  intro w good bad script
  obtain ⟨first, second, third, listed, failed, done⟩ : ∃ first second third,
      w.calls scripted [id, id, id] false script = [first, second, third] ∧
        first.result.isOk = false ∧ second.result = .ok () := ⟨_, _, _, rfl, rfl, rfl⟩
  obtain ⟨-, -, each⟩ := calls_memoised w scripted [id, id, id] script
  refine ⟨first, second, third, listed, failed, ?second, done, ?third⟩
  case second =>
    rcases each [first] second [third] listed with ⟨⟨b, hb, good⟩, -⟩ | ⟨-, attempt⟩
    · rw [← List.mem_singleton.1 hb, good] at failed
      cases failed
    · exact attempt
  case third =>
    rcases each [first, second] third [] listed with ⟨-, none⟩ | ⟨failed, -⟩
    · exact none
    · exact (failed second (List.mem_cons_of_mem _ List.mem_cons_self) done).elim

end Workspace

end Foreman

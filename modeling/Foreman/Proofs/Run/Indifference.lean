import Foreman.Proofs.Run.FinalStatus
import Foreman.Proofs.Run.Quotation

namespace Foreman

def RunPolicy.hiding (p : RunPolicy) (s : String) : RunPolicy :=
  { p with redactor := .ofValues [s] }

namespace Run

/-- The same collaborators, except that the agent ends in a certain way. -/
def Collaborators.answering (c : Collaborators σ) (o : ChildOutcome) : Collaborators σ :=
  { c with work := fun d w => (.ok o, (c.work d w).2) }

/-- The run of a task whose agent fails and quotes a secret. -/
def quotingRun (p : RunPolicy) (t : Task) (c : Collaborators σ) (o : ChildOutcome)
    (stream : Redactor.Template) (w : σ) (s : String) : Progress σ :=
  drive (p.hiding s) t (c.answering (quoting o stream s)) w

section

variable {p : RunPolicy} {t : Task} {c : Collaborators σ} {o : ChildOutcome}
  {stream : Redactor.Template} {s s' : String}

def Unseen (s s' : String) (text : String) : Prop :=
  ¬ s.toList <:+: text.toList ∧ ¬ s'.toList <:+: text.toList

/-- Whether the report that a stage leads to holds neither of two secrets. The commit of a task
whose agent has failed is not verified. -/
def Stage.Unseen (s s' : String) : Stage → Prop
  | .recording _ _ notice => Run.Unseen s s' notice
  | .burying error => Run.Unseen s s' error
  | .verifying .. => False
  | _ => True

theorem redact_eq (h : Quotable t o.exitCode stream s) (h' : Quotable t o.exitCode stream s')
    {text text' : String} (texts : Redactor.Exchanged s.toList s'.toList text.toList text'.toList) :
    (p.hiding s).redactor.redact text = (p.hiding s').redactor.redact text' := by
  apply String.toList_inj.1
  simp only [RunPolicy.hiding, Redactor.toList_redact]
  exact texts.redactChars h.kept h'.kept h.solid h'.solid

theorem unseen_redact (h : Quotable t o.exitCode stream s) (h' : Quotable t o.exitCode stream s')
    {text text' : String} (texts : Redactor.Exchanged s.toList s'.toList text.toList text'.toList) :
    Unseen s s' ((p.hiding s).redactor.redact text) := by
  constructor
  · exact h.absent_redact text
  · rw [redact_eq h h' texts]
    exact h'.absent_redact text'

theorem Unseen.behind (h : Quotable t o.exitCode stream s) (h' : Quotable t o.exitCode stream s')
    (unseen : Unseen s s' text) (hp : phrase ∈ wording o.exitCode)
    (composed : whole.toList = phrase.toList ++ ' ' :: text.toList) : Unseen s s' whole := by
  rw [Unseen, composed]
  exact ⟨h.absent_phrase hp unseen.1, h'.absent_phrase hp unseen.2⟩

/-- Whether two runs, each with its own secret, have come to the same stage with the same notices,
and none of them gives a secret away. -/
structure Agree (s s' : String) (a a' : Stage × List String) : Prop where
  same : a = a'
  stage : a.1.Unseen s s'
  notices : ∀ n ∈ a.2, Unseen s s' n

theorem agree_crash (h : Quotable t o.exitCode stream s) (h' : Quotable t o.exitCode stream s')
    (unseen : Unseen s s' text) :
    Agree s s' (Stage.crash (p.hiding s) text, []) (Stage.crash (p.hiding s') text, []) := by
  have texts := Redactor.Exchanged.of_absent unseen.1 unseen.2
  refine ⟨?_, unseen_redact h h' texts, nofun⟩
  rw [Stage.crash, Stage.crash, redact_eq h h' texts]

theorem agree_afterPanic (h : Quotable t o.exitCode stream s)
    (h' : Quotable t o.exitCode stream s') (unseen : Unseen s s' x.text) :
    Agree s s' (Stage.afterPanic (p.hiding s) x, []) (Stage.afterPanic (p.hiding s') x, []) := by
  have known : "pipeline panicked:" ∈ wording o.exitCode :=
    .tail _ (.tail _ (.tail _ (.tail _ (.head _))))
  have unseen' : Unseen s s' s!"pipeline panicked: {x.text}" :=
    unseen.behind h h' known (by simp [toString])
  exact agree_crash h h' unseen'

theorem Agree.refl (stage : a.1.Unseen s s') (notices : ∀ n ∈ a.2, Unseen s s' n) :
    Agree s s' a a :=
  ⟨rfl, stage, notices⟩

theorem agree_written (h : Quotable t o.exitCode stream s) (h' : Quotable t o.exitCode stream s')
    (stage : Stage) (unseen : stage.Unseen s s')
    (silent : ∀ text, a.complaint? = some text → Unseen s s' text) :
    Agree s s' (stage.next (p.hiding s) t (.written a))
      (stage.next (p.hiding s') t (.written a)) := by
  cases stage with
  | marking =>
    cases a with
    | ok =>
      apply Agree.refl (a := (.working, [startedNotice t])) True.intro
      intro n hn
      rw [List.mem_singleton.1 hn]
      exact ⟨h.absent_startedNotice, h'.absent_startedNotice⟩
    | failed f =>
      have known : "mark task in_progress:" ∈ wording o.exitCode :=
        .tail _ (.tail _ (.tail _ (.head _)))
      have composed : (f.within "mark task in_progress").full.toList =
          "mark task in_progress:".toList ++ ' ' :: f.full.toList := by
        simp [Fault.toList_full_within]
      exact agree_crash h h' ((silent f.full rfl).behind h h' known composed)
    | panicked x => exact agree_afterPanic h h' (silent x.text rfl)
  | recording outcome update notice =>
    have closing : ∀ n ∈ [notice], Unseen s s' n := by
      intro n hn
      rw [List.mem_singleton.1 hn]
      exact unseen
    cases a with
    | ok | failed => exact Agree.refl (a := (.ended outcome, [notice])) True.intro closing
    | panicked x => exact agree_afterPanic h h' (silent x.text rfl)
  | burying error =>
    have closing : ∀ n ∈ [failedNotice t error], Unseen s s' n := by
      intro n hn
      rw [List.mem_singleton.1 hn]
      exact ⟨h.absent_failedNotice unseen.1, h'.absent_failedNotice unseen.2⟩
    cases a with
    | ok | failed =>
      exact Agree.refl (a := (.ended (.crashed error), [failedNotice t error])) True.intro closing
    | panicked x => exact Agree.refl (a := (.unwound x, [])) True.intro nofun
  | verifying => exact unseen.elim
  | working => exact Agree.refl (a := (.working, [])) unseen nofun
  | ended outcome => exact Agree.refl (a := (.ended outcome, [])) unseen nofun
  | unwound x => exact Agree.refl (a := (.unwound x, [])) unseen nofun

theorem next_quoting (p : RunPolicy) (t : Task) (o : ChildOutcome) (stream : Redactor.Template)
    (s : String) :
    Stage.working.next p t (.worked (.ok (quoting o stream s))) =
      let error := p.redactor.redact (Verdict.failureText (quoting o stream s))
      (.recording (.failed error) (stuckUpdate error) (failedNotice t error), []) := rfl

theorem agree_worked (h : Quotable t o.exitCode stream s) (h' : Quotable t o.exitCode stream s')
    (hole : stream.rest ≠ []) (same : s.length = s'.length) (uncut : Uncut stream s) :
    Agree s s' (Stage.working.next (p.hiding s) t (.worked (.ok (quoting o stream s))))
      (Stage.working.next (p.hiding s') t (.worked (.ok (quoting o stream s')))) := by
  have texts := exchanged_failureText h h' hole same uncut
  have unseen := unseen_redact (p := p) h h' texts
  have error := redact_eq (p := p) h h' texts
  refine ⟨?_, ?_, nofun⟩
  · simp only [next_quoting, error]
  · rw [next_quoting]
    exact ⟨h.absent_failedNotice unseen.1, h'.absent_failedNotice unseen.2⟩

/-- Whether two runs have done the same, and none of their notices holds one of two secrets. -/
structure Alike (s s' : String) (g g' : Progress σ) : Prop where
  stage : g.stage = g'.stage
  writes : g.writes = g'.writes
  notices : g.notices = g'.notices
  world : g.world = g'.world
  pending : g.stage.Unseen s s'
  told : ∀ n ∈ g.notices, Unseen s s' n

variable {g g' : Progress σ} {p₁ p₂ : RunPolicy} {c₁ c₂ : Collaborators σ}

theorem Progress.writes_step (hq : g.stage.request? p t = some q) :
    (g.step p t c).writes = g.writes ++ (writeOf? (q, (c.reply q g.world).1)).toList := by
  rw [step_eq hq, writes, writes, List.filterMap_append]
  cases h : writeOf? (q, (c.reply q g.world).1) <;> simp [h]

theorem Alike.answered (alike : Alike s s' g g') (hq : g.stage.request? p₁ t = some q)
    (hq' : g'.stage.request? p₂ t = some q)
    (agree : Agree s s' (g.stage.next p₁ t (c₁.reply q g.world).1)
      (g'.stage.next p₂ t (c₂.reply q g'.world).1))
    (write : writeOf? (q, (c₁.reply q g.world).1) = writeOf? (q, (c₂.reply q g'.world).1))
    (world : (c₁.reply q g.world).2 = (c₂.reply q g'.world).2) :
    Alike s s' (g.step p₁ t c₁) (g'.step p₂ t c₂) := by
  have writes : (g.step p₁ t c₁).writes = (g'.step p₂ t c₂).writes := by
    rw [Progress.writes_step hq, Progress.writes_step hq', alike.writes, write]
  rw [Progress.step_eq hq, Progress.step_eq hq'] at writes ⊢
  refine ⟨?_, writes, ?_, world, agree.stage, ?_⟩
  · exact congrArg Prod.fst agree.same
  · simp only [alike.notices, agree.same]
  · intro n hn
    rcases List.mem_append.1 hn with old | new
    · exact alike.told n old
    · exact agree.notices n new

theorem request?_hiding (stage : Stage) (p : RunPolicy) (s : String) :
    stage.request? (p.hiding s) t = stage.request? p t := by
  cases stage <;> rfl

theorem Alike.step (h : Quotable t o.exitCode stream s) (h' : Quotable t o.exitCode stream s')
    (hole : stream.rest ≠ []) (same : s.length = s'.length) (uncut : Uncut stream s)
    (silent : ∀ u w text, (c.write u w).1.complaint? = some text → Unseen s s' text)
    (alike : Alike s s' g g') :
    Alike s s' (g.step (p.hiding s) t (c.answering (quoting o stream s)))
      (g'.step (p.hiding s') t (c.answering (quoting o stream s'))) := by
  have requests : g'.stage.request? (p.hiding s') t = g.stage.request? (p.hiding s) t := by
    rw [← alike.stage, request?_hiding, request?_hiding]
  cases hq : g.stage.request? (p.hiding s) t with
  | none =>
    rw [Progress.step_of_isOver ((Stage.request?_eq_none_iff _).1 hq),
      Progress.step_of_isOver ((Stage.request?_eq_none_iff _).1 (requests.trans hq))]
    exact alike
  | some q =>
    cases q with
    | write u =>
      have reply : (c.answering (quoting o stream s)).reply (.write u) g.world =
          (c.answering (quoting o stream s')).reply (.write u) g'.world := by
        rw [alike.world]
        rfl
      apply alike.answered hq (requests.trans hq)
      · rw [reply, ← alike.stage]
        exact agree_written h h' g.stage alike.pending (silent u g'.world)
      · rw [reply]
      · rw [reply]
    | work d =>
      have working : g.stage = .working := by
        cases hs : g.stage <;> rw [hs] at hq <;> cases hq
      apply alike.answered hq (requests.trans hq)
      · rw [← alike.stage, working]
        exact agree_worked h h' hole same uncut
      · rfl
      · change (c.work d g.world).2 = (c.work d g'.world).2
        rw [alike.world]
    | verify commit =>
      have pending := alike.pending
      cases hs : g.stage with
      | verifying =>
        rw [hs] at pending
        exact pending.elim
      | marking | working | recording | burying | ended | unwound =>
        rw [hs] at hq
        cases hq

theorem Alike.steps (h : Quotable t o.exitCode stream s) (h' : Quotable t o.exitCode stream s')
    (hole : stream.rest ≠ []) (same : s.length = s'.length) (uncut : Uncut stream s)
    (silent : ∀ u w text, (c.write u w).1.complaint? = some text → Unseen s s' text) (n : Nat)
    (alike : Alike s s' g g') :
    Alike s s' (g.steps (p.hiding s) t (c.answering (quoting o stream s)) n)
      (g'.steps (p.hiding s') t (c.answering (quoting o stream s')) n) := by
  induction n generalizing g g' with
  | zero => exact alike
  | succ n ih => exact ih (alike.step h h' hole same uncut silent)

/-- Two runs, each with its own secret, leave the same with the task, come to the same outcome and
send the same notices. -/
structure SameReport (p : RunPolicy) (s s' : String) (g g' : Progress σ) : Prop where
  stage : g.stage = g'.stage
  writes : g.writes = g'.writes
  world : g.world = g'.world
  notices : g.notices.map (p.hiding s).redactor.redact =
    g'.notices.map (p.hiding s').redactor.redact

/-- The report of a failed run is the same for two secrets that fill the same holes of the error
stream, as long as none is cut. -/
theorem quotingRun_indifferent (h : Quotable t o.exitCode stream s)
    (h' : Quotable t o.exitCode stream s') (hole : stream.rest ≠ [])
    (same : s.length = s'.length) (uncut : Uncut stream s)
    (silent : ∀ u w text, (c.write u w).1.complaint? = some text → Unseen s s' text) (w : σ) :
    SameReport p s s' (quotingRun p t c o stream w s) (quotingRun p t c o stream w s') := by
  have alike : Alike s s' (quotingRun p t c o stream w s) (quotingRun p t c o stream w s') :=
    .steps h h' hole same uncut silent 5
      ⟨rfl, rfl, rfl, rfl, True.intro, fun n hn => (List.not_mem_nil hn).elim⟩
  refine ⟨alike.stage, alike.writes, alike.world, ?_⟩
  rw [← alike.notices]
  apply List.map_congr_left
  intro n hn
  have unseen := alike.told n hn
  exact redact_eq h h' (.of_absent unseen.1 unseen.2)

end

/-- A store that takes every write and remembers it. -/
def ledger : Collaborators (List TaskUpdate) where
  write u w := (.ok (), w ++ [u])
  work _ w := (.panicked .other, w)
  verify _ w := (.error .other, w)

theorem ledger_silent (u : TaskUpdate) (w : List TaskUpdate) (text : String)
    (h : (ledger.write u w).1.complaint? = some text) : Unseen s s' text := by
  cases h

def plainFailure : ChildOutcome := ⟨false, some 1, "", "", false, 0, 0⟩

/-- Two secrets of one length. Both end in a character that nothing else in these examples has. -/
def rivals : List String := ["swordfish-and-chips!", "battery-and-staples!"]

theorem quotable_rivals (stream : Redactor.Template) (first : '!' ∉ stream.first)
    (rest : ∀ piece ∈ stream.rest, '!' ∉ piece) :
    ∀ s ∈ rivals, Quotable plainTask (some 1) stream s := by
  have kept : ∀ s ∈ rivals, Redactor.isKept s = true := by decide
  have unspaced : ∀ s ∈ rivals, s.toList.any Text.isBlank = false := by decide
  have opening : ∀ s ∈ rivals, '[' ∉ s.toList := by decide
  have closing : ∀ s ∈ rivals, ']' ∉ s.toList := by decide
  have long : ∀ s ∈ rivals, s.toList.length = 20 := by decide
  have placed : ∀ s ∈ rivals, stream.OnlyInHoles s.toList := by
    intro s hs
    simp only [rivals, List.mem_cons, List.not_mem_nil, or_false] at hs
    rcases hs with rfl | rfl
    · exact stream.onlyInHoles_of_last (x := "swordfish-and-chips".toList) (by decide) first rest
    · exact stream.onlyInHoles_of_last (x := "battery-and-staples".toList) (by decide) first rest
  have unsaid : ∀ s ∈ rivals, ∀ phrase ∈ wording (some 1),
      Text.occursIn s.toList phrase.toList = false := by decide +kernel
  intro s hs
  have absent {text : List Char} (h : text.length < 20) : ¬ s.toList <:+: text := by
    intro inside
    have le := inside.length_le
    rw [long s hs] at le
    omega
  have solid : ∀ c ∈ s.toList, Text.isBlank c = false :=
    fun c hc => Bool.eq_false_iff.2 (List.any_eq_false.1 (unspaced s hs) c hc)
  refine ⟨kept s hs, ⟨opening s hs, closing s hs, absent (by decide)⟩, solid, placed s hs,
    absent (by decide), ?_⟩
  intro phrase hp inside
  rw [← Text.occursIn_iff, unsaid s hs phrase hp] at inside
  cases inside

/-- A short error stream is quoted whole. -/
def shortStream : Redactor.Template := ⟨"fatal: token ".toList, [" was refused".toList]⟩

theorem uncut_shortStream : ∀ s ∈ rivals, Uncut shortStream s := by
  have short : ∀ s ∈ rivals, (Text.trim (shortStream.fill s.toList)).length = 45 := by decide
  intro s hs l r hu
  have total := congrArg List.length hu
  rw [short s hs] at total
  simp only [List.length_append, String.length_toList] at total
  refine .inl (Nat.le_trans ?_ (by decide : 45 ≤ Verdict.quotedLength))
  omega

theorem quotingRun_indifferent_shortStream :
    Quotable plainTask (some 1) shortStream "swordfish-and-chips!" ∧
      Quotable plainTask (some 1) shortStream "battery-and-staples!" ∧
      shortStream.rest ≠ [] ∧ Uncut shortStream "swordfish-and-chips!" ∧
      SameReport plainPolicy "swordfish-and-chips!" "battery-and-staples!"
        (quotingRun plainPolicy plainTask ledger plainFailure shortStream [] "swordfish-and-chips!")
        (quotingRun plainPolicy plainTask ledger plainFailure shortStream []
          "battery-and-staples!") := by
  have quotable := quotable_rivals shortStream (by decide) (by decide)
  have h := quotable "swordfish-and-chips!" (by decide)
  have h' := quotable "battery-and-staples!" (by decide)
  have hole : shortStream.rest ≠ [] := by decide
  have uncut := uncut_shortStream "swordfish-and-chips!" (by decide)
  exact ⟨h, h', hole, uncut,
    quotingRun_indifferent (o := plainFailure) h h' hole (by decide) uncut ledger_silent []⟩

def dots : List Char := List.replicate 1990 '.'

theorem length_dots : dots.length = 1990 := List.length_replicate

theorem eq_of_mem_dots (h : c ∈ dots) : c = '.' := List.eq_of_mem_replicate h

/-- The end that is quoted of this error stream begins amid a secret of twenty characters. -/
def longStream : Redactor.Template := ⟨[], [dots]⟩

theorem fill_longStream (secret : List Char) : longStream.fill secret = secret ++ dots := by
  simp [longStream, Redactor.Template.fill]

theorem quotable_longStream : ∀ s ∈ rivals, Quotable plainTask (some 1) longStream s := by
  refine quotable_rivals longStream (by decide) ?_
  intro piece hp hc
  rw [List.mem_singleton.1 hp] at hc
  exact absurd (eq_of_mem_dots hc) (by decide)

theorem toList_failureText_longStream (h : Quotable plainTask (some 1) longStream s)
    (long : s.toList.length = 20) :
    (Verdict.failureText (quoting plainFailure longStream s)).toList =
      (statusPhrase (some 1) ++ ":").toList ++ ' ' :: (s.toList.drop 10 ++ dots) := by
  have unspaced : ∀ c ∈ s.toList ++ dots, Text.isBlank c = false := by
    intro c hc
    rcases List.mem_append.1 hc with hc | hc
    · exact h.unspaced c hc
    · rw [eq_of_mem_dots hc]
      decide
  have trimmed : Text.trim (s.toList ++ dots) = s.toList ++ dots := by
    have solid : Redactor.Solid (s.toList ++ dots) :=
      ⟨fun empty => h.solid.ne_nil (List.append_eq_nil_iff.1 empty).1, unspaced⟩
    have start := solid.trimStart_append []
    have stop := solid.trimEnd_append []
    simp only [List.append_nil] at start stop
    rw [Text.trim, start, stop]
    exact List.append_nil _
  have quoted : Verdict.quoted [] (longStream.fill s.toList) = s.toList.drop 10 ++ dots := by
    rw [quoted_quoting (o := plainFailure) h (by decide), fill_longStream, trimmed, Verdict.tail]
    have cut : (s.toList ++ dots).length - Verdict.quotedLength = 10 := by
      simp [long, length_dots, Verdict.quotedLength]
    rw [cut, List.drop_append_of_le_length (by omega)]
  have some : s.toList.drop 10 ++ dots ≠ [] := by
    intro empty
    have length := congrArg List.length empty
    simp [long, length_dots] at length
  have text := toList_failureText (quoting plainFailure longStream s)
  simp only [quoting, plainFailure, String.toList_ofList] at text
  rw [quoting, plainFailure, text]
  change (if Verdict.quoted [] _ = [] then _ else _ ++ ' ' :: Verdict.quoted [] _) = _
  rw [quoted, if_neg some]

/-- The characters that the report has besides the dots. -/
def shown (s : String) : List Char :=
  (statusPhrase (some 1) ++ ":").toList ++ ' ' :: s.toList.drop 10

/-- Redaction hides nothing of what is left of a secret. -/
theorem toList_redact_longStream (hs : s ∈ rivals) :
    ((plainPolicy.hiding s).redactor.redact
      (Verdict.failureText (quoting plainFailure longStream s))).toList = shown s ++ dots := by
  have unfit : ∀ s ∈ rivals, ∀ q ∈ Redaction.Pattern.all, ∃ part ∈ q, 0 < part.least ∧
      ('.' :: shown s).any part.accepts = false := by decide +kernel
  have other : ∀ s ∈ rivals,
      (s.toList.any fun c => !('.' :: shown s).contains c) = true := by decide +kernel
  have long : ∀ s ∈ rivals, s.toList.length = 20 := by decide
  have quotable := quotable_longStream s hs
  have text : (Verdict.failureText (quoting plainFailure longStream s)).toList =
      shown s ++ dots := by
    rw [toList_failureText_longStream quotable (long s hs), shown, List.append_assoc]
    rfl
  have among : ∀ c ∈ shown s ++ dots, c ∈ '.' :: shown s := by
    intro c hc
    rcases List.mem_append.1 hc with hc | hc
    · exact List.mem_cons_of_mem _ hc
    · rw [eq_of_mem_dots hc]
      exact List.mem_cons_self
  -- The text is too long to compute with. It has few characters besides the dots, and no secret and
  -- no credential can do with these.
  rw [Redactor.toList_redact, text]
  apply Redactor.redactChars_eq_self
  · intro secret known inside
    simp only [RunPolicy.hiding, Redactor.secrets_ofValues_singleton quotable.kept,
      List.mem_singleton] at known
    obtain ⟨c, hc, strange⟩ := List.any_eq_true.1 (other s hs)
    subst known
    have found := List.contains_iff_mem.2 (among c (inside.subset hc))
    rw [found] at strange
    cases strange
  · intro q hq
    obtain ⟨part, hp, pos, refuses⟩ := unfit s hs q hq
    apply Redaction.Pattern.not_occursIn_of_lacks hp pos
    exact fun c hc => Bool.eq_false_iff.2 (List.any_eq_false.1 refuses c (among c hc))

theorem not_occursIn_longStream : ∀ s ∈ rivals, ∀ q ∈ Redaction.Pattern.all,
    ¬ q.OccursIn (longStream.fill s.toList) := by
  have unfit : ∀ s ∈ rivals, ∀ q ∈ Redaction.Pattern.all, ∃ part ∈ q, 0 < part.least ∧
      ('.' :: s.toList).any part.accepts = false := by decide +kernel
  intro s hs q hq
  obtain ⟨part, hp, pos, refuses⟩ := unfit s hs q hq
  rw [fill_longStream]
  apply Redaction.Pattern.not_occursIn_of_lacks hp pos
  intro c hc
  apply Bool.eq_false_iff.2 (List.any_eq_false.1 refuses c _)
  rcases List.mem_append.1 hc with hc | hc
  · exact List.mem_cons_of_mem _ hc
  · rw [eq_of_mem_dots hc]
    exact List.mem_cons_self

/-- Where a secret is cut, the report tells one from another of the same length. -/
theorem not_sameReport_of_cut :
    (∀ s ∈ rivals, Quotable plainTask (some 1) longStream s ∧ s.length = 20 ∧
      s.utf8ByteSize = 20 ∧ ∀ q ∈ Redaction.Pattern.all, ¬ q.OccursIn (longStream.fill s.toList)) ∧
    ¬ SameReport plainPolicy "swordfish-and-chips!" "battery-and-staples!"
        (quotingRun plainPolicy plainTask ledger plainFailure longStream [] "swordfish-and-chips!")
        (quotingRun plainPolicy plainTask ledger plainFailure longStream []
          "battery-and-staples!") := by
  have sizes : ∀ s ∈ rivals, s.length = 20 ∧ s.utf8ByteSize = 20 := by decide
  constructor
  · intro s hs
    exact ⟨quotable_longStream s hs, (sizes s hs).1, (sizes s hs).2,
      not_occursIn_longStream s hs⟩
  · intro report
    have outcome (s : String) :
        (quotingRun plainPolicy plainTask ledger plainFailure longStream [] s).stage =
          .ended (.failed ((plainPolicy.hiding s).redactor.redact
            (Verdict.failureText (quoting plainFailure longStream s)))) := rfl
    have same := report.stage
    rw [outcome, outcome] at same
    injection same with same
    injection same with same
    have texts := congrArg String.toList same
    rw [toList_redact_longStream (by decide), toList_redact_longStream (by decide)] at texts
    have prefixes := List.append_cancel_right texts
    exact absurd prefixes (by decide +kernel)

end Run

end Foreman

import Foreman.Proofs.Redaction.Exchange
import Foreman.Run.Stage

namespace Foreman

/-- What an answer that is none has to say. -/
def Answer.complaint? : Answer α → Option String
  | .ok _ => none
  | .failed fault => some fault.full
  | .panicked panic => some panic.text

theorem Fault.toList_full_within (f : Fault) (doing : String) :
    (f.within doing).full.toList = doing.toList ++ ':' :: ' ' :: f.full.toList := by
  have ne : f.contexts ++ [f.cause] ≠ [] := by simp
  simp [within, full, String.intercalate_cons_of_ne_nil ne]

namespace Run

theorem toList_startedNotice (t : Task) :
    (startedNotice t).toList = "Started task:".toList ++ ' ' :: t.title.toList := by
  have text : startedNotice t = "Started task: " ++ t.title := rfl
  have phrase : "Started task: ".toList = "Started task:".toList ++ [' '] := by decide
  rw [text, String.toList_append, phrase, List.append_assoc, List.singleton_append]

theorem toList_failedNotice (t : Task) (error : String) :
    (failedNotice t error).toList =
      "Task failed:".toList ++ ' ' :: (t.title.toList ++ '\n' :: error.toList) := by
  have text : failedNotice t error = "Task failed: " ++ t.title ++ "\n" ++ error := rfl
  have phrase : "Task failed: ".toList = "Task failed:".toList ++ [' '] := by decide
  have feed : "\n".toList = ['\n'] := by decide
  simp only [text, String.toList_append, phrase, feed, List.append_assoc, List.cons_append,
    List.nil_append]

def statusPhrase (exitCode : Option Int) : String :=
  s!"agent exited with status {Verdict.exitText exitCode}"

/-- The phrases that stand before a text which a run reports. -/
def wording (exitCode : Option Int) : List String :=
  ["Started task:", "Task failed:", statusPhrase exitCode ++ ":", "mark task in_progress:",
    "pipeline panicked:"]

/-- A secret for the holes of an error stream, which neither the task nor the wording of the report
mentions. -/
structure Quotable (t : Task) (exitCode : Option Int) (stream : Redactor.Template) (s : String) :
    Prop where
  kept : Redactor.isKept s = true
  foreign : Redactor.Foreign s.toList
  unspaced : ∀ c ∈ s.toList, Text.isBlank c = false
  placed : stream.OnlyInHoles s.toList
  title : ¬ s.toList <:+: t.title.toList
  wording : ∀ phrase ∈ wording exitCode, ¬ s.toList <:+: phrase.toList

namespace Quotable

variable {t : Task} {stream : Redactor.Template} {s : String}

theorem solid (h : Quotable t code stream s) : Redactor.Solid s.toList where
  ne_nil empty := h.foreign.word (empty ▸ List.nil_infix)
  unspaced := h.unspaced

theorem not_mem_space (h : Quotable t code stream s) : ' ' ∉ s.toList :=
  fun hs => absurd (h.unspaced ' ' hs) (by decide)

theorem not_mem_lineFeed (h : Quotable t code stream s) : '\n' ∉ s.toList :=
  fun hs => absurd (h.unspaced '\n' hs) (by decide)

theorem absent_phrase (h : Quotable t code stream s) (hp : phrase ∈ Run.wording code)
    (absent : ¬ s.toList <:+: text) : ¬ s.toList <:+: phrase.toList ++ ' ' :: text :=
  not_infix_append_cons h.not_mem_space (h.wording phrase hp) absent

theorem absent_startedNotice (h : Quotable t code stream s) :
    ¬ s.toList <:+: (startedNotice t).toList := by
  rw [toList_startedNotice]
  exact h.absent_phrase (.head _) h.title

theorem absent_failedNotice (h : Quotable t code stream s) {error : String}
    (absent : ¬ s.toList <:+: error.toList) : ¬ s.toList <:+: (failedNotice t error).toList := by
  have body := not_infix_append_cons h.not_mem_lineFeed h.title absent
  rw [toList_failedNotice]
  exact h.absent_phrase (.tail _ (.head _)) body

theorem absent_redact (h : Quotable t code stream s) (text : String) :
    ¬ s.toList <:+: ((Redactor.ofValues [s]).redact text).toList := by
  have known : s ∈ (Redactor.ofValues [s]).secrets := by
    rw [Redactor.secrets_ofValues_singleton h.kept]
    exact List.mem_cons_self
  rw [Redactor.toList_redact]
  exact h.foreign.not_infix_redactChars known text.toList

end Quotable

/-- A failure of the agent whose error stream quotes a secret. -/
def quoting (o : ChildOutcome) (stream : Redactor.Template) (s : String) : ChildOutcome :=
  { o with success := false, timedOut := false, stderr := String.ofList (stream.fill s.toList) }

variable {t : Task} {o : ChildOutcome} {stream : Redactor.Template} {s s' : String}

/-- Whether no secret in the error stream is cut where the end begins that an error quotes. -/
def Uncut (stream : Redactor.Template) (s : String) : Prop :=
  ∀ l r, Text.trim (stream.fill s.toList) = l ++ s.toList ++ r →
    r.length + s.length ≤ Verdict.quotedLength ∨ Verdict.quotedLength ≤ r.length

theorem quoted_quoting (h : Quotable t o.exitCode stream s) (hole : stream.rest ≠ [])
    (stdout : List Char) :
    Verdict.quoted stdout (stream.fill s.toList) =
      Verdict.tail Verdict.quotedLength (Text.trim (stream.fill s.toList)) := by
  rw [Verdict.quoted, stream.not_isBlankText_fill h.solid hole]
  rfl

theorem exchanged_quoted (h : Quotable t o.exitCode stream s)
    (h' : Quotable t o.exitCode stream s') (hole : stream.rest ≠ []) (same : s.length = s'.length)
    (uncut : Uncut stream s) (stdout : List Char) :
    Redactor.Exchanged s.toList s'.toList (Verdict.quoted stdout (stream.fill s.toList))
      (Verdict.quoted stdout (stream.fill s'.toList)) := by
  have filled := stream.exchanged h.solid.ne_nil h'.solid.ne_nil h.placed h'.placed
  have trimmed := filled.trim h.solid h'.solid
  have lengths := trimmed.length_eq same
  rw [quoted_quoting h hole, quoted_quoting h' hole, Verdict.tail, Verdict.tail, ← lengths]
  apply trimmed.drop same
  intro l r hu
  have place := uncut l r hu
  rw [hu]
  simp only [List.length_append, String.length_toList]
  omega

theorem toList_failureText (o : ChildOutcome) :
    (Verdict.failureText o).toList =
      if Verdict.quoted o.stdout.toList o.stderr.toList = [] then
        (statusPhrase o.exitCode).toList
      else
        (statusPhrase o.exitCode ++ ":").toList ++
          ' ' :: Verdict.quoted o.stdout.toList o.stderr.toList := by
  have text : Verdict.failureText o =
      if (Verdict.quoted o.stdout.toList o.stderr.toList).isEmpty then statusPhrase o.exitCode
      else statusPhrase o.exitCode ++ ": " ++
        String.ofList (Verdict.quoted o.stdout.toList o.stderr.toList) := rfl
  rw [text]
  simp only [List.isEmpty_iff]
  split
  · rfl
  · have colon : ": ".toList = ":".toList ++ [' '] := by decide
    simp only [String.toList_append, String.toList_ofList, colon, List.append_assoc,
      List.singleton_append]

theorem exchanged_failureText (h : Quotable t o.exitCode stream s)
    (h' : Quotable t o.exitCode stream s') (hole : stream.rest ≠ []) (same : s.length = s'.length)
    (uncut : Uncut stream s) :
    Redactor.Exchanged s.toList s'.toList (Verdict.failureText (quoting o stream s)).toList
      (Verdict.failureText (quoting o stream s')).toList := by
  have detail := exchanged_quoted h h' hole same uncut o.stdout.toList
  have empty := detail.eq_nil_iff h.solid.ne_nil h'.solid.ne_nil
  have known : statusPhrase o.exitCode ++ ":" ∈ wording o.exitCode :=
    .tail _ (.tail _ (.head _))
  rw [toList_failureText, toList_failureText]
  simp only [quoting, String.toList_ofList, ← empty]
  split
  · have initial :
        (statusPhrase o.exitCode).toList <:+: (statusPhrase o.exitCode ++ ":").toList := by
      rw [String.toList_append]
      exact (List.prefix_append _ _).isInfix
    apply Redactor.Exchanged.of_absent
    · exact fun inside => h.wording _ known (inside.trans initial)
    · exact fun inside => h'.wording _ known (inside.trans initial)
  · exact detail.behind h.not_mem_space h'.not_mem_space (h.wording _ known) (h'.wording _ known)

end Run

end Foreman

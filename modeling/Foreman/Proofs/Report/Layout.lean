import Foreman.Proofs.Report.Envelope
import Foreman.Proofs.Text.Lines

namespace Foreman.Report

/-- A part of an answer: text of no meaning, or a block. -/
inductive Segment where
  | noise (text : List Char)
  | block (marker : Marker) (content : List Char)

namespace Segment

def text : Segment → List Char
  | noise s => s
  | block m content =>
    m.opening.toList ++ '\n' :: (content ++ '\n' :: m.closing.toList)

def marker? : Segment → Option Marker
  | noise _ => none
  | block m _ => some m

def inner : Segment → List Char
  | noise s => s
  | block _ content => content

end Segment

/-- The segments one below the other. -/
def layoutText : List Segment → List Char
  | [] => []
  | [s] => s.text
  | s :: t :: rest => s.text ++ '\n' :: layoutText (t :: rest)

/-- The content of the block with a marker. -/
def contentOf? (m : Marker) : List Segment → Option (List Char)
  | [] => none
  | .noise _ :: rest => contentOf? m rest
  | .block m' content :: rest => if m' = m then some content else contentOf? m rest

/-- Each kind of block comes at most once, and no marker occurs in noise and contents. -/
structure Prescribed (segments : List Segment) : Prop where
  known : ∀ s ∈ segments, ∀ m ∈ s.marker?, m ∈ Marker.all
  once : (segments.filterMap Segment.marker?).Nodup
  quiet : ∀ s ∈ segments, Marker.Quiet s.inner

/-- `Reason block reason` says that a flag block gives `reason`: what follows its first label, or
else all of it. -/
inductive Reason : List Char → List Char → Prop where
  | labelled (first : ¬ reasonLabel <:+: before) (said : Text.trim after ≠ []) :
      Reason (before ++ (reasonLabel ++ after)) (Text.trim after)
  | silent (first : ¬ reasonLabel <:+: before) (blank : Text.trim after = []) :
      Reason (before ++ (reasonLabel ++ after)) (before ++ (reasonLabel ++ after))
  | unlabelled (absent : ¬ reasonLabel <:+: block) : Reason block block

/-- What the report on a laid out answer says: each matter as the block about it has it. -/
structure Reads (segments : List Segment) (r : Report) : Prop where
  notes : r.notes = ((contentOf? .notes segments).bind Text.content?).map String.ofList
  commit : r.commit =
    (((contentOf? .commit segments).map Text.trim).filter CommitClaim.isHash).map String.ofList
  flagged : ∀ content, contentOf? .flag segments = some content → Text.trim content ≠ [] →
    ∃ reason, r.flagged = some (String.ofList reason) ∧
      ∀ x, Reason (Text.trim content) x ↔ x = reason
  unflagged : (contentOf? .flag segments).bind Text.content? = none → r.flagged = none

theorem Prescribed.tail (h : Prescribed (s :: rest)) : Prescribed rest where
  known t ht := h.known t (List.mem_cons_of_mem s ht)
  once := h.once.sublist ((List.sublist_cons_self s rest).filterMap _)
  quiet t ht := h.quiet t (List.mem_cons_of_mem s ht)

section

variable {m : Marker} {segments : List Segment}

theorem absent_marker (hm : m ∈ Marker.all) (other : m' ∈ Marker.all) (ne : m' ≠ m) :
    m.Absent m'.opening.toList ∧ m.Absent m'.closing.toList := by
  have all : ∀ m ∈ Marker.all, ∀ m' ∈ Marker.all, m' ≠ m →
      ∀ s ∈ [m'.opening.toList, m'.closing.toList], Text.occursIn m.opening.toList s = false ∧
        Text.occursIn m.closing.toList s = false := by decide
  have lacks (s : List Char) (hs : s ∈ [m'.opening.toList, m'.closing.toList]) : m.Absent s := by
    obtain ⟨opening, closing⟩ := all m hm m' other ne s hs
    constructor
    · rw [← Text.occursIn_iff, opening]
      exact Bool.false_ne_true
    · rw [← Text.occursIn_iff, closing]
      exact Bool.false_ne_true
  exact ⟨lacks _ (by simp), lacks _ (by simp)⟩

theorem Segment.absent {s : Segment} (hm : m ∈ Marker.all) (known : ∀ m ∈ s.marker?, m ∈ Marker.all)
    (quiet : Marker.Quiet s.inner) (other : s.marker? ≠ some m) : m.Absent s.text := by
  cases s with
  | noise s => exact quiet.absent hm
  | block m' content =>
    have ne : m' ≠ m := fun same => other (congrArg some same)
    obtain ⟨opening, closing⟩ := absent_marker hm (known m' rfl) ne
    exact opening.append_cons hm rfl ((quiet.absent hm).append_cons hm rfl closing)

theorem absent_layoutText (hm : m ∈ Marker.all) (h : Prescribed segments)
    (other : ∀ s ∈ segments, s.marker? ≠ some m) : m.Absent (layoutText segments) := by
  induction segments with
  | nil => exact Marker.quiet_nil.absent hm
  | cons s rest ih =>
    have first : m.Absent s.text := Segment.absent hm (h.known s List.mem_cons_self)
      (h.quiet s List.mem_cons_self) (other s List.mem_cons_self)
    have later := ih h.tail fun t ht => other t (List.mem_cons_of_mem s ht)
    cases rest with
    | nil => exact first
    | cons t rest => exact first.append_cons hm rfl later

theorem contentOf?_cons {s : Segment} (other : s.marker? ≠ some m) (rest : List Segment) :
    contentOf? m (s :: rest) = contentOf? m rest := by
  cases s with
  | noise s => rfl
  | block m' content =>
    have ne : m' ≠ m := fun same => other (congrArg some same)
    rw [contentOf?, if_neg ne]

/-- The block of a marker is found where it stands. -/
theorem body?_layoutText (hm : m ∈ Marker.all) (h : Prescribed segments) :
    m.body? (layoutText segments) =
      (contentOf? m segments).map fun content => '\n' :: (content ++ ['\n']) := by
  induction segments with
  | nil => exact Marker.body?_eq_none (Marker.quiet_nil.absent hm)
  | cons s rest ih =>
    by_cases here : s.marker? = some m
    · cases s with
      | noise s => cases here
      | block m' content =>
        cases here
        have quiet : Marker.Quiet content := h.quiet (.block m content) List.mem_cons_self
        have block := Marker.body?_block hm (quiet.absent hm)
        have fresh : ∀ t ∈ rest, t.marker? ≠ some m := by
          intro t ht same
          have once : m ∉ rest.filterMap Segment.marker? := (List.nodup_cons.1 h.once).1
          exact once (List.mem_filterMap.2 ⟨t, ht, same⟩)
        have later := absent_layoutText hm h.tail fresh
        rw [contentOf?, if_pos rfl, Option.map_some, ← block]
        cases rest with
        | nil => rfl
        | cons t rest => exact Marker.body?_append_cons_right hm rfl later _
    · have first : m.Absent s.text := Segment.absent hm (h.known s List.mem_cons_self)
        (h.quiet s List.mem_cons_self) here
      rw [contentOf?_cons here, ← ih h.tail]
      cases rest with
      | nil =>
        have nothing := Marker.body?_eq_none (Marker.quiet_nil.absent hm)
        exact (Marker.body?_eq_none first).trans nothing.symm
      | cons t rest => exact Marker.body?_append_cons hm rfl first _

end

theorem trim_lines (content : List Char) :
    Text.trim ('\n' :: (content ++ ['\n'])) = Text.trim content :=
  have feed := Text.blank_singleton (c := '\n') rfl
  Text.trim_append_blank feed feed content

theorem reason_iff : Reason block x ↔ x = reasonOf block := by
  have cut {before after : List Char} (first : ¬ reasonLabel <:+: before) :
      Text.cut? reasonLabel (before ++ (reasonLabel ++ after)) = some (before, after) :=
    Text.cut?_append_self (by decide) first after
  constructor
  · rintro (⟨first, said⟩ | ⟨first, blank⟩ | absent)
    · simp [reasonOf, cut first, Text.content?, said]
    · simp [reasonOf, cut first, Text.content?, blank]
    · rw [reasonOf, Text.cut?_eq_none.2 absent]
  · rintro rfl
    rw [reasonOf]
    cases found : Text.cut? reasonLabel block with
    | none => exact .unlabelled (Text.cut?_eq_none.1 found)
    | some p =>
      obtain ⟨rfl, first⟩ := Text.cut?_eq_some (by decide) found
      by_cases blank : Text.trim p.2 = []
      · simpa [Text.content?, blank] using Reason.silent first blank
      · simpa [Text.content?, blank] using Reason.labelled first blank

theorem content?_lines (content : List Char) :
    Text.content? ('\n' :: (content ++ ['\n'])) = Text.content? content := by
  rw [Text.content?, trim_lines, Text.content?]

/-- A commit is reported if the block holds a hash, and only then. -/
theorem commitHash?_singleton (text : List Char) :
    commitHash? [text] = ((Marker.commit.block? text).map Text.trim).filter CommitClaim.isHash := by
  simp only [commitHash?]
  cases Marker.commit.block? text with
  | none => rfl
  | some block =>
    simp only [Option.map_some, CommitClaim.ofContent]
    by_cases word : Text.lower (Text.trim block) = "none".toList
    · have short : (Text.trim block).length = 4 := by
        simpa [Text.lower] using congrArg List.length word
      rw [if_pos word]
      simp [Option.filter, CommitClaim.isHash, short]
    · rw [if_neg word]
      cases hash : CommitClaim.isHash (Text.trim block) <;> simp [Option.filter, hash]

section

variable {segments : List Segment}

theorem reads_ofTexts (h : Prescribed segments) (result : Option String)
    (metrics : Option Metrics) : Reads segments (ofTexts result metrics [layoutText segments]) := by
  have flag := flagReason?_eq (layoutText segments)
  have notes := devNotes?_eq (layoutText segments)
  have commit := commitHash?_singleton (layoutText segments)
  rw [body?_layoutText (by decide) h] at flag notes
  rw [Marker.block?_eq (by decide), body?_layoutText (by decide) h] at commit
  simp only [Option.bind_map, Option.map_map, Function.comp_def, content?_lines, trim_lines,
    (Text.trimmed_trim _).trim_eq_self, Option.map_id_fun, id_eq] at flag notes commit
  constructor
  · simp only [ofTexts, List.findSome?_singleton, notes]
  · simp only [ofTexts, commit]
  · intro content hc said
    refine ⟨reasonOf (Text.trim content), ?_, fun x => reason_iff⟩
    simp [ofTexts, flag, hc, Text.content?, said]
  · intro hc
    rw [Option.bind_eq_none_iff] at hc
    have nothing : flagReason? (layoutText segments) = none := by
      rw [flag, Option.bind_eq_none_iff]
      intro content found
      rw [hc content found]
      rfl
    simp [ofTexts, nothing]

theorem Reads.of_sameFindings (same : SameFindings r r') (h : Reads segments r') :
    Reads segments r where
  notes := same.notes.trans h.notes
  commit := same.commit.trans h.commit
  flagged content hc said := by
    obtain ⟨reason, hr, only⟩ := h.flagged content hc said
    exact ⟨reason, same.flagged.trans hr, only⟩
  unflagged hc := same.flagged.trans (h.unflagged hc)

end

theorem ofOutput?_eq_none {s : List Char}
    (lines : ∀ line ∈ Text.lines s, (Text.trim line).head? ≠ some '\x7b') :
    Envelope.ofOutput? s = none := by
  have plain : ¬ Text.Leads '\x7b' s := by
    intro leads
    obtain ⟨line, hl, first⟩ := leads.exists_line rfl
    exact lines line hl first
  have noObject (t : List Char) (ht : t.head? ≠ some '\x7b') : Envelope.ofText? t = none := by
    unfold Envelope.ofText?
    split
    · exact (ht rfl).elim
    · rfl
  have whole : (Text.trim s).head? ≠ some '\x7b' := by
    intro first
    obtain ⟨r, hr⟩ := List.head?_eq_some_iff.1 first
    exact plain (.of_trim ⟨[], r, Text.blank_nil, .inl hr⟩)
  have last (line : List Char) (hl : Envelope.lastLine? (Text.trim s) = some line) :
      (Text.trim line).head? ≠ some '\x7b' := by
    intro first
    have member : line ∈ Text.lines (Text.trim s) :=
      List.mem_reverse.1 (List.mem_of_find?_eq_some hl)
    exact plain (.of_trim (Text.leads_of_line member first))
  rw [Envelope.ofOutput?, noObject _ whole]
  cases hl : Envelope.lastLine? (Text.trim s) with
  | none => rfl
  | some line => exact noObject _ (last line hl)

/-- An answer in the prescribed layout is read back, by itself and as the message of an envelope
that has no marker elsewhere. -/
theorem ofOutput_layout (segments : List Segment) (h : Prescribed segments) :
    ((∀ line ∈ Text.lines (layoutText segments), (Text.trim line).head? ≠ some '\x7b') →
      Reads segments (ofOutput (String.ofList (layoutText segments)))) ∧
    ((∀ m content, contentOf? m segments = some content → Text.trim content ≠ []) →
      ∀ members, Envelope.Carries members (String.ofList (layoutText segments)) →
        Reads segments (ofOutput (Json.record members).compact)) := by
  constructor
  · intro lines
    have alone := ofOutput?_eq_none lines
    rw [← String.toList_ofList (l := layoutText segments)] at alone
    rw [ofOutput_of_no_envelope alone, String.toList_ofList]
    exact reads_ofTexts h none none
  · intro said members carries
    refine Reads.of_sameFindings ?_ (reads_ofTexts h none none)
    have full (m : Marker) (hm : m ∈ Marker.all) : ¬ m.Hollow (layoutText segments) := by
      rintro ⟨body, hb, blank, -⟩
      rw [body?_layoutText hm h] at hb
      obtain ⟨content, hc, rfl⟩ := Option.map_eq_some_iff.1 hb
      apply said m content hc
      rw [← trim_lines, Text.trim_eq_nil]
      exact blank
    have same := sameFindings_record_iff carries
    rw [String.toList_ofList] at same
    exact same.2 ⟨full _ (by decide), full _ (by decide)⟩

theorem ofOutput_layout_notesAndCommit :
    let segments := [Segment.noise "All done.".toList, .block .notes "Added a parser.".toList,
      .block .commit "0123abc".toList]
    let members := [("type", Json.ofString "result"),
      ("result", .ofString (String.ofList (layoutText segments))), ("is_error", .bool false)]
    Prescribed segments ∧ Envelope.Carries members (String.ofList (layoutText segments)) ∧
      Reads segments (ofOutput (String.ofList (layoutText segments))) ∧
        Reads segments (ofOutput (Json.record members).compact) := by
  intro segments members
  have prescribed : Prescribed segments := by
    constructor
    · simp only [segments, List.forall_mem_cons]
      decide
    · decide
    · simp only [segments, List.forall_mem_cons]
      decide
  have carries : Envelope.Carries members (String.ofList (layoutText segments)) := by
    have unmarked : Marker.Unmarked "type" ∧ Marker.Unmarked "result" ∧
        Marker.Unmarked "is_error" := by
      unfold Marker.Unmarked
      decide
    constructor
    · simp [members]
    · simp [members]
    · simp [members, Envelope.Typed]
    · simp [members, unmarked, Json.ofString, Json.Sound.bool, Json.Sound.string unmarked.2.1]
  have lines : ∀ line ∈ Text.lines (layoutText segments), (Text.trim line).head? ≠ some '\x7b' := by
    decide +kernel
  have said : ∀ m content, contentOf? m segments = some content → Text.trim content ≠ [] := by
    intro m content hc
    simp only [segments, contentOf?] at hc
    split at hc
    · cases hc
      decide
    · split at hc
      · cases hc
        decide
      · cases hc
  obtain ⟨plain, enveloped⟩ := ofOutput_layout segments prescribed
  exact ⟨prescribed, carries, plain lines, enveloped said members carries⟩

end Foreman.Report

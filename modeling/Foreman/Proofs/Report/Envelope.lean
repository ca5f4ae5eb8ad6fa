import Foreman.Proofs.Report.Member
import Foreman.Proofs.Text.Lines
import Foreman.Report.Basic

namespace Foreman

namespace Envelope

/-- Whether a member has a value that its name allows. -/
def Typed (name : String) (v : Json) : Prop :=
  match name with
  | "num_turns" => (Json.orNull? Json.asUInt32? v).isSome
  | "total_cost_usd" | "cost_usd" => (Json.orNull? Json.asBinary64? v).isSome
  | "duration_ms" => (Json.orNull? Json.asUInt64? v).isSome
  | "usage" => (Json.orNull? usageOfJson? v).isSome
  | _ => True

/-- The members of an object whose message is `text`, and which has no marker elsewhere. -/
structure Carries (members : List (String × Json)) (text : String) : Prop where
  names : (members.map Prod.fst).Nodup
  message : ("result", .ofString text) ∈ members
  typed : ∀ m ∈ members, Typed m.1 m.2
  others : ∀ m ∈ members, m.1 ≠ "result" →
    Marker.Unmarked m.1 ∧ Json.Sound Marker.Unmarked m.2

variable {members : List (String × Json)} {text : String}

theorem Carries.ofJson? (h : Carries members text) :
    ∃ e, ofJson? (Json.record members) = some e ∧ e.result = some text := by
  have fields := Json.fields?_record fieldNames h.names
  generalize hf : Json.Fields.mk false (members.filter fun m => fieldNames.contains m.1) = fs
    at fields
  have read {α : Type} (name : String) (reader : Json → Option α)
      (ok : ∀ v, Typed name v → (Json.orNull? reader v).isSome) :
      ∃ x, fs.optional? name reader = some x := by
    apply Json.Fields.exists_optional?
    intro v hv
    rw [← hf] at hv
    exact ok v (h.typed (name, v) (List.mem_filter.1 hv).1)
  have message : fs.optional? "result" Json.asText? = some (some text) := by
    have nodup : (fs.values.map Prod.fst).Nodup := by
      rw [← hf]
      exact h.names.sublist (List.filter_sublist.map Prod.fst)
    have member : ("result", Json.ofString text) ∈ fs.values := by
      rw [← hf]
      exact List.mem_filter.2 ⟨h.message, rfl⟩
    exact Json.Fields.optional?_of_mem nodup member Json.asText?
  obtain ⟨turns, hturns⟩ := read "num_turns" Json.asUInt32? fun v hv => hv
  obtain ⟨total, htotal⟩ := read "total_cost_usd" Json.asBinary64? fun v hv => hv
  obtain ⟨cost, hcost⟩ := read "cost_usd" Json.asBinary64? fun v hv => hv
  obtain ⟨duration, hduration⟩ := read "duration_ms" Json.asUInt64? fun v hv => hv
  obtain ⟨usage, husage⟩ := read "usage" usageOfJson? fun v hv => hv
  refine ⟨⟨some text, turns, total, cost, duration, usage⟩, ?_, rfl⟩
  simp [Envelope.ofJson?, fields, message, hturns, htotal, hcost, hduration, husage]

theorem carries_singleton (text : String) : Carries [("result", .ofString text)] text where
  names := by simp
  message := by simp
  typed := by simp [Typed]
  others := by simp

theorem Carries.bears (h : Carries members text) : Json.Bears "result" members text where
  names := h.names
  member := h.message
  unmarked := Marker.quiet_of_any (by decide)
  others := h.others

theorem ofText?_record (sound : Json.Sound ok (Json.record members)) :
    ofText? (Json.record members).compactChars = ofJson? (Json.record members) := by
  have read := sound.parse?_compact
  obtain ⟨u, braces⟩ := Json.braces_compact_record members
  rw [braces] at read ⊢
  rw [ofText?, read, Option.bind_some]

theorem lastLine?_eq_some {s line : List Char} (before : List (List Char))
    (lines : Text.lines s = before ++ [line]) (solid : Text.isBlankText line = false) :
    lastLine? s = some line := by
  simp [lastLine?, lines, solid]

/-- An object on a line of its own is read as an envelope or not at all. -/
theorem ofOutput?_record (sound : Json.Sound ok (Json.record members)) :
    ofOutput? (Json.record members).compactChars = ofJson? (Json.record members) := by
  have trimmed := (Json.trimmed_compact_record members).trim_eq_self
  have solid := Json.isBlankText_compact_record members
  have line := Text.lines_of_not_mem sound.feed_not_mem (Json.compact_record_ne_nil members)
  rw [ofOutput?, trimmed, lastLine?_eq_some [] line solid, Option.bind_some, trimmed,
    ofText?_record sound]
  cases ofJson? (Json.record members) <;> rfl

theorem Carries.ofOutput? (h : Carries members text) :
    ∃ e, ofOutput? (Json.record members).compactChars = some e ∧ e.result = some text := by
  obtain ⟨e, he, message⟩ := h.ofJson?
  exact ⟨e, (ofOutput?_record h.bears.sound).trans he, message⟩

end Envelope

namespace Marker

/-- The block is blank, but it holds line feeds or other control characters, for each of which an
escape stands where the text is quoted. -/
def Hollow (m : Marker) (text : List Char) : Prop :=
  ∃ body, m.body? text = some body ∧ Text.Blank body ∧ ∃ c ∈ body, c.toNat < 0x20

end Marker

namespace Report

open Marker (Hollow)

theorem devNotes?_eq (text : List Char) :
    devNotes? text = (Marker.notes.body? text).bind fun body => (Text.content? body).map id := by
  simp only [devNotes?, Marker.block?_eq (m := .notes) (by decide), Option.map_id_fun, id_eq]
  cases Marker.notes.body? text <;> rfl

theorem reasonOf_ne_nil (ne : block ≠ []) : reasonOf block ≠ [] := by
  rw [reasonOf]
  split
  · exact ne
  · rename_i rest _
    rw [Text.content?]
    split
    · exact ne
    · simp_all

theorem flagReason?_eq (text : List Char) :
    flagReason? text =
      (Marker.flag.body? text).bind fun body => (Text.content? body).map reasonOf := by
  rw [flagReason?, Marker.block?_eq (by decide)]
  cases Marker.flag.body? text with
  | none => rfl
  | some body =>
    simp only [Option.map_some, Option.bind_some, present?, Text.content?, List.isEmpty_iff]
    by_cases blank : Text.trim body = []
    · rw [blank]
      rfl
    · rw [if_neg (reasonOf_ne_nil blank), if_neg blank]
      rfl

/-- Another text that quotes the first one adds nothing to what is read, unless the block is
hollow. -/
theorem findSome?_echo {read : List Char → Option α} {g : List Char → α} {m : Marker}
    (reads : ∀ text, read text = (m.body? text).bind fun body => (Text.content? body).map g)
    (quoted : m.body? raw = (m.body? text).map (·.flatMap Json.escapeChar)) :
    [text, raw].findSome? read = [text].findSome? read ↔ ¬ m.Hollow text := by
  simp only [List.findSome?, reads, quoted, Hollow]
  cases hb : m.body? text with
  | none => simp
  | some body =>
    cases hc : Text.content? body with
    | some x =>
      have solid : ¬ Text.Blank body := by
        rw [← Text.content?_eq_none, hc]
        exact Option.some_ne_none x
      simp [hc, solid]
    | none =>
      -- Only now is the quoted text read, where an escape makes a blank body look filled.
      have blank := Text.content?_eq_none.1 hc
      have shown := Json.blank_flatMap_escapeChar blank
      rw [← Text.content?_eq_none] at shown
      cases hq : Text.content? (body.flatMap Json.escapeChar) with
      | none => simpa [hc, hq, blank] using shown.1 hq
      | some x => simpa [hc, hq, blank] using shown

theorem isHash_of_backslash (h : '\\' ∈ content) : CommitClaim.isHash content = false := by
  have digits : content.all Text.isHexDigit = false := List.all_eq_false.2 ⟨_, h, by decide⟩
  rw [CommitClaim.isHash, digits, Bool.and_false]

/-- A backslash stands neither in a hash nor in the word for none. -/
theorem ofContent_of_backslash (h : '\\' ∈ content) :
    CommitClaim.ofContent content = .invalid := by
  have stays : '\\' ∈ Text.trim content := (Text.mem_trim rfl).2 h
  have noWord : Text.lower (Text.trim content) ≠ "none".toList := by
    intro word
    have lowered : '\\' ∈ Text.lower (Text.trim content) := List.mem_map.2 ⟨_, stays, by decide⟩
    rw [word] at lowered
    revert lowered
    decide
  rw [CommitClaim.ofContent, if_neg noWord, isHash_of_backslash stays]
  rfl

theorem commitHash?_echo
    (quoted : Marker.commit.body? raw =
      (Marker.commit.body? text).map (·.flatMap Json.escapeChar)) :
    commitHash? [text, raw] = commitHash? [text] := by
  simp only [commitHash?, Marker.block?_eq (m := .commit) (by decide), quoted]
  cases Marker.commit.body? text with
  | none => rfl
  | some body =>
    simp only [Option.map_some]
    cases hc : CommitClaim.ofContent (Text.trim body) with
    | none => rfl
    | hash h => rfl
    | invalid =>
      have still : CommitClaim.ofContent (Text.trim (body.flatMap Json.escapeChar)) = .invalid := by
        rcases Json.flatMap_escapeChar body with ⟨same, -⟩ | escaped
        · rw [same, hc]
        · exact ofContent_of_backslash ((Text.mem_trim rfl).2 escaped)
      rw [still]

theorem ofTexts_cons_quiet (quiet : Marker.Quiet text) (result : Option String)
    (metrics : Option Metrics) (texts : List (List Char)) :
    ofTexts result metrics (text :: texts) = ofTexts result metrics texts := by
  have empty (m : Marker) (hm : m ∈ Marker.all) : m.body? text = none :=
    Marker.body?_eq_none (quiet.absent hm)
  have flag : flagReason? text = none := by
    rw [flagReason?_eq, empty _ (by decide)]
    rfl
  have notes : devNotes? text = none := by
    rw [devNotes?_eq, empty _ (by decide)]
    rfl
  have commit : Marker.commit.block? text = none := by
    rw [Marker.block?_eq (by decide), empty _ (by decide)]
    rfl
  simp [ofTexts, flag, notes, commitHash?, commit]

theorem quiet_of_blank (blank : Text.Blank text) : Marker.Quiet text := by
  apply Marker.quiet_of_any
  rw [List.any_eq_false]
  intro c hc letter
  exact Text.not_mem_of_blank blank (Marker.isBlank_of_isLetter letter) hc

structure SameFindings (r r' : Report) : Prop where
  flagged : r.flagged = r'.flagged
  commit : r.commit = r'.commit
  notes : r.notes = r'.notes

/-- The message that a report shows: a blank one counts for nothing. -/
def shown? (text : String) : Option String :=
  if Text.isBlankText text.toList then none else some text

theorem message?_eq (message : e.result = some text) : message? e = shown? text := by
  rw [message?, message, Option.filter, shown?]
  cases Text.isBlankText text.toList <;> rfl

theorem ofOutput_of_envelope {s : String} (he : Envelope.ofOutput? s.toList = some e)
    (message : e.result = some text) :
    ofOutput s = ofTexts (shown? text) e.metrics? [text.toList, s.toList] := by
  have read := message?_eq message
  by_cases blank : Text.isBlankText text.toList = true
  · rw [ofTexts_cons_quiet (quiet_of_blank (Text.isBlankText_iff.1 blank))]
    rw [shown?, if_pos blank] at read ⊢
    simp [ofOutput, he, read]
  · rw [shown?, if_neg blank] at read ⊢
    simp [ofOutput, he, read]

theorem ofOutput_record (h : Envelope.Carries members text) :
    ∃ metrics, ofOutput (Json.record members).compact =
      ofTexts (shown? text) metrics [text.toList, (Json.record members).compactChars] := by
  obtain ⟨e, he, message⟩ := h.ofOutput?
  have read : Envelope.ofOutput? (Json.record members).compact.toList = some e := by
    rwa [Json.compact, String.toList_ofList]
  refine ⟨e.metrics?, ?_⟩
  rw [ofOutput_of_envelope read message, Json.compact, String.toList_ofList]

theorem ofOutput_of_no_envelope {s : String} (alone : Envelope.ofOutput? s.toList = none) :
    ofOutput s = ofTexts none none [s.toList] := by
  rw [ofOutput, alone]
  rfl

theorem sameFindings_record_iff (h : Envelope.Carries members text) :
    SameFindings (ofOutput (Json.record members).compact) (ofTexts none none [text.toList]) ↔
      ¬ Marker.flag.Hollow text.toList ∧ ¬ Marker.notes.Hollow text.toList := by
  obtain ⟨metrics, enveloped⟩ := ofOutput_record h
  have flagged := findSome?_echo flagReason?_eq (h.bears.body? (m := .flag) (by decide))
  have notes := findSome?_echo devNotes?_eq (h.bears.body? (m := .notes) (by decide))
  have commit := commitHash?_echo (h.bears.body? (m := .commit) (by decide))
  have inj := Option.map_injective fun _ _ => String.ofList_injective
  rw [enveloped, ← flagged, ← notes]
  constructor
  · rintro ⟨hf, -, hn⟩
    exact ⟨inj hf, inj hn⟩
  · rintro ⟨hf, hn⟩
    have written {x y : Option (List Char)} (h : x = y) :
        x.map String.ofList = y.map String.ofList := congrArg _ h
    exact ⟨written hf, written commit, written hn⟩

/-- What a message says by itself and in an envelope is the same, unless a flag or notes block of it
is hollow. -/
theorem ofOutput_enveloped_iff (m : String) (alone : Envelope.ofOutput? m.toList = none) :
    SameFindings (ofOutput (Json.record [("result", .ofString m)]).compact) (ofOutput m) ↔
      ¬ Marker.flag.Hollow m.toList ∧ ¬ Marker.notes.Hollow m.toList := by
  rw [ofOutput_of_no_envelope alone]
  exact sameFindings_record_iff (Envelope.carries_singleton m)

theorem ofOutput_enveloped_iff_shortNotes :
    let m := "DEV_NOTES_START\ndone\nDEV_NOTES_END"
    Envelope.ofOutput? m.toList = none ∧
      (SameFindings (ofOutput (Json.record [("result", .ofString m)]).compact) (ofOutput m) ↔
        ¬ Marker.flag.Hollow m.toList ∧ ¬ Marker.notes.Hollow m.toList) := by
  intro m
  have alone : Envelope.ofOutput? m.toList = none :=
    Option.isNone_iff_eq_none.1 (by decide +kernel)
  exact ⟨alone, ofOutput_enveloped_iff m alone⟩

/-- Of an empty line between the markers, the escapes are taken for notes. -/
theorem not_sameFindings_emptyNotes :
    let m := "DEV_NOTES_START\n\nDEV_NOTES_END"
    Text.isBlankText m.toList = false ∧ Envelope.ofOutput? m.toList = none ∧
      ¬ SameFindings (ofOutput (Json.record [("result", .ofString m)]).compact) (ofOutput m) := by
  refine ⟨by decide +kernel, Option.isNone_iff_eq_none.1 (by decide +kernel), ?_⟩
  rintro ⟨-, -, notes⟩
  revert notes
  decide +kernel

end Report

end Foreman

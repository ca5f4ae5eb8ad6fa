import Foreman.Proofs.Report.Layout

namespace Foreman

namespace Envelope

/-- An object, whatever else is in it, that is an envelope with this message. -/
structure Holds (members : List (String × Json)) (text : String) : Prop where
  sound : Json.Sound (fun _ => True) (Json.record members)
  reads : ∃ e, ofJson? (Json.record members) = some e ∧ e.result = some text

theorem Carries.holds (h : Carries members text) : Holds members text where
  sound := h.bears.sound
  reads := h.ofJson?

variable {turn last : List (String × Json)}

theorem trim_twoLines (turn last : List (String × Json)) :
    Text.trim ((Json.record turn).compactChars ++
        '\n' :: ((Json.record last).compactChars ++ ['\n'])) =
      (Json.record turn).compactChars ++ '\n' :: (Json.record last).compactChars := by
  obtain ⟨u, first⟩ := Json.braces_compact_record turn
  obtain ⟨v, second⟩ := Json.braces_compact_record last
  rw [first, second]
  have trimmed : Text.Trimmed ('\x7b' :: (u ++ ['\x7d']) ++ '\n' :: '\x7b' :: (v ++ ['\x7d'])) := by
    constructor
    · rintro c ⟨⟩
      rfl
    · have ends : '\x7b' :: (u ++ ['\x7d']) ++ '\n' :: '\x7b' :: (v ++ ['\x7d']) =
          ('\x7b' :: (u ++ ['\x7d']) ++ '\n' :: '\x7b' :: v) ++ ['\x7d'] := by simp
      rw [ends, List.getLast?_concat]
      rintro c ⟨⟩
      rfl
  have feed := Text.blank_singleton (c := '\n') rfl
  simpa using trimmed.trim_eq Text.blank_nil feed

/-- Two documents are no document. -/
theorem ofText?_twoLines (sound : Json.Sound ok (Json.record turn))
    (last : List (String × Json)) :
    ofText? ((Json.record turn).compactChars ++ '\n' :: (Json.record last).compactChars) =
      none := by
  have ends : Json.Ends ('\n' :: (Json.record last).compactChars) := by
    rintro c ⟨⟩
    decide
  have read := sound.spelling_compact.parse?_append ends
  obtain ⟨u, first⟩ := Json.braces_compact_record turn
  obtain ⟨v, second⟩ := Json.braces_compact_record last
  rw [second] at read
  rw [first, second] at *
  rw [List.cons_append, ofText?, ← List.cons_append, read]
  rfl

theorem ofOutput?_twoLines (first : Json.Sound ok (Json.record turn))
    (second : Json.Sound ok' (Json.record last)) :
    ofOutput? ((Json.record turn).compactChars ++
      '\n' :: ((Json.record last).compactChars ++ ['\n'])) = ofJson? (Json.record last) := by
  have lines := Text.lines_append_cons first.feed_not_mem second.feed_not_mem
    (Json.compact_record_ne_nil last)
  have solid := Json.isBlankText_compact_record last
  have line := lastLine?_eq_some [Text.chomp (Json.record turn).compactChars] lines solid
  rw [ofOutput?, trim_twoLines, ofText?_twoLines first last, line, Option.bind_some,
    (Json.trimmed_compact_record last).trim_eq_self, ofText?_record second]
  rfl

end Envelope

namespace Report

variable {turn last : List (String × Json)} {t r : String} {content : List Char}

/-- Two documents, each on a line of its own. -/
def stream (turn last : List (String × Json)) : String :=
  (Json.record turn).compact ++ "\n" ++ (Json.record last).compact ++ "\n"

theorem toList_stream (turn last : List (String × Json)) :
    (stream turn last).toList =
      (Json.record turn).compactChars ++ '\n' :: ((Json.record last).compactChars ++ ['\n']) := by
  simp [stream, Json.compact]

/-- Of a stream whose last message has no marker, the lines are read as they are written. -/
theorem ofOutput_stream_eq (first : Json.Bears "text" turn t) (second : Envelope.Holds last r)
    (quiet : Marker.Unmarked r) :
    ∃ result metrics,
      ofOutput (stream turn last) = ofTexts result metrics [(stream turn last).toList] := by
  obtain ⟨e, he, message⟩ := second.reads
  have read : Envelope.ofOutput? (stream turn last).toList = some e := by
    rw [toList_stream, Envelope.ofOutput?_twoLines first.sound second.sound, he]
  refine ⟨shown? r, e.metrics?, ?_⟩
  rw [ofOutput_of_envelope read message, ofTexts_cons_quiet quiet]

theorem body?_stream {m : Marker} (hm : m ∈ Marker.all) (first : Json.Bears "text" turn t)
    (h : m.body? t.toList = some body) (last : List (String × Json)) :
    m.body? (stream turn last).toList = some (body.flatMap Json.escapeChar) := by
  rw [toList_stream]
  apply Marker.body?_append_of_eq_some hm
  rw [first.body? hm, h]
  rfl

theorem commit_stream (first : Json.Bears "text" turn t) (second : Envelope.Holds last r)
    (quiet : Marker.Unmarked r) (h : Marker.commit.body? t.toList = some body) :
    (ofOutput (stream turn last)).commit =
      ((some (Text.trim (body.flatMap Json.escapeChar))).filter CommitClaim.isHash).map
        String.ofList := by
  obtain ⟨result, metrics, same⟩ := ofOutput_stream_eq first second quiet
  have block := body?_stream (by decide) first h last
  have trimmed := (Text.trimmed_trim (body.flatMap Json.escapeChar)).trim_eq_self
  rw [same]
  simp only [ofTexts, commitHash?_singleton, Marker.block?_eq (m := .commit) (by decide), block,
    Option.map_some, trimmed]

theorem notes_stream (first : Json.Bears "text" turn t) (second : Envelope.Holds last r)
    (quiet : Marker.Unmarked r) (h : Marker.notes.body? t.toList = some body) :
    (ofOutput (stream turn last)).notes =
      (Text.content? (body.flatMap Json.escapeChar)).map String.ofList := by
  obtain ⟨result, metrics, same⟩ := ofOutput_stream_eq first second quiet
  have block := body?_stream (by decide) first h last
  rw [same]
  simp [ofTexts, devNotes?_eq, block]

/-- What an escape leaves of a content on lines of its own. -/
def escapedLines (content : List Char) : List Char :=
  '\\' :: 'n' :: (content.flatMap Json.escapeChar ++ ['\\', 'n'])

theorem flatMap_escapeChar_lines (content : List Char) :
    ('\n' :: (content ++ ['\n'])).flatMap Json.escapeChar = escapedLines content := by
  simp [escapedLines, Json.escapeChar]

theorem trim_escapedLines (content : List Char) :
    Text.trim (escapedLines content) = escapedLines content := by
  apply Text.Trimmed.trim_eq_self
  constructor
  · rintro c ⟨⟩
    rfl
  · have ends : escapedLines content =
        ('\\' :: 'n' :: (content.flatMap Json.escapeChar ++ ['\\'])) ++ ['n'] := by
      simp [escapedLines]
    rw [ends, List.getLast?_concat]
    rintro c ⟨⟩
    rfl

theorem commit_stream_lines (first : Json.Bears "text" turn t) (second : Envelope.Holds last r)
    (quiet : Marker.Unmarked r)
    (h : Marker.commit.body? t.toList = some ('\n' :: (content ++ ['\n']))) :
    (ofOutput (stream turn last)).commit = none := by
  have read := commit_stream first second quiet h
  have escaped : CommitClaim.isHash (escapedLines content) = false :=
    isHash_of_backslash List.mem_cons_self
  rw [flatMap_escapeChar_lines, trim_escapedLines] at read
  simpa [Option.filter, escaped] using read

theorem notes_stream_lines (first : Json.Bears "text" turn t) (second : Envelope.Holds last r)
    (quiet : Marker.Unmarked r)
    (h : Marker.notes.body? t.toList = some ('\n' :: (content ++ ['\n']))) :
    (ofOutput (stream turn last)).notes = some (String.ofList (escapedLines content)) := by
  have read := notes_stream first second quiet h
  have solid : escapedLines content ≠ [] := List.cons_ne_nil _ _
  rw [flatMap_escapeChar_lines, Text.content?, trim_escapedLines] at read
  simpa [solid] using read

/-- A block of an earlier message is read back if nothing in it has to be escaped. On lines of its
own it is not: the commit is lost, and the notes come with their escapes. -/
theorem ofOutput_stream (first : Json.Bears "text" turn t) (second : Envelope.Holds last r)
    (quiet : Marker.Unmarked r) :
    let report := ofOutput (stream turn last)
    (∀ body, Marker.commit.body? t.toList = some body → body.flatMap Json.escapeChar = body →
      report.commit =
        ((some (Text.trim body)).filter CommitClaim.isHash).map String.ofList) ∧
    (∀ body, Marker.notes.body? t.toList = some body → body.flatMap Json.escapeChar = body →
      report.notes = (Text.content? body).map String.ofList) ∧
    (∀ hash, Marker.commit.body? t.toList = some ('\n' :: (hash ++ ['\n'])) →
      report.commit = none) ∧
    ∀ notes, Marker.notes.body? t.toList = some ('\n' :: (notes ++ ['\n'])) →
      report.notes = some (String.ofList (escapedLines notes)) := by
  intro report
  refine ⟨?_, ?_, ?_, ?_⟩
  · intro body h plain
    have read := commit_stream first second quiet h
    rwa [plain] at read
  · intro body h plain
    have read := notes_stream first second quiet h
    rwa [plain] at read
  · intro hash h
    exact commit_stream_lines first second quiet h
  · intro notes h
    exact notes_stream_lines first second quiet h

/-- A message with a commit and notes, each marker on a line of its own. -/
def spokenSegments : List Segment :=
  [.noise "All done.".toList, .block .commit "0123abc".toList,
    .block .notes "Added a parser.".toList]

def spoken : String := String.ofList (layoutText spokenSegments)

def spokenTurn : List (String × Json) :=
  [("type", .ofString "assistant"), ("text", .ofString spoken)]

def finishedLast : List (String × Json) :=
  [("type", .ofString "result"), ("result", .ofString "All finished."), ("is_error", .bool false)]

theorem unmarked_names :
    Marker.Unmarked "type" ∧ Marker.Unmarked "text" ∧ Marker.Unmarked "result" ∧
      Marker.Unmarked "is_error" ∧ Marker.Unmarked "assistant" ∧
        Marker.Unmarked "All finished." := by
  unfold Marker.Unmarked
  decide

theorem bears_spokenTurn : Json.Bears "text" spokenTurn spoken := by
  obtain ⟨type, text, -, -, assistant, -⟩ := unmarked_names
  constructor
  · simp [spokenTurn]
  · simp [spokenTurn]
  · exact text
  · simp [spokenTurn, type, Json.ofString, Json.Sound.string assistant]

theorem carries_finishedLast : Envelope.Carries finishedLast "All finished." := by
  obtain ⟨type, -, result, error, -, -⟩ := unmarked_names
  constructor
  · simp [finishedLast]
  · simp [finishedLast]
  · simp [finishedLast, Envelope.Typed]
  · simp [finishedLast, type, error, Json.ofString, Json.Sound.bool, Json.Sound.string result]

theorem prescribed_spokenSegments : Prescribed spokenSegments := by
  constructor
  · simp only [spokenSegments, List.forall_mem_cons]
    decide
  · decide
  · simp only [spokenSegments, List.forall_mem_cons]
    decide

theorem body?_spoken {m : Marker} (hm : m ∈ Marker.all) :
    m.body? spoken.toList =
      (contentOf? m spokenSegments).map fun content => '\n' :: (content ++ ['\n']) := by
  rw [spoken, String.toList_ofList, body?_layoutText hm prescribed_spokenSegments]

theorem commit_spoken :
    Marker.commit.body? spoken.toList = some ('\n' :: ("0123abc".toList ++ ['\n'])) :=
  body?_spoken (by decide)

theorem notes_spoken :
    Marker.notes.body? spoken.toList = some ('\n' :: ("Added a parser.".toList ++ ['\n'])) :=
  body?_spoken (by decide)

theorem ofOutput_stream_spoken :
    (Json.Bears "text" spokenTurn spoken ∧ Envelope.Holds finishedLast "All finished." ∧
      Marker.Unmarked "All finished.") ∧
    (ofOutput (stream spokenTurn finishedLast)).commit = none ∧
    (ofOutput (stream spokenTurn finishedLast)).notes =
      some (String.ofList (escapedLines "Added a parser.".toList)) := by
  have quiet : Marker.Unmarked "All finished." := unmarked_names.2.2.2.2.2
  have holds := carries_finishedLast.holds
  obtain ⟨-, -, lost, escaped⟩ := ofOutput_stream bears_spokenTurn holds quiet
  exact ⟨⟨bears_spokenTurn, holds, quiet⟩, lost _ commit_spoken, escaped _ notes_spoken⟩

/-- The message by itself says what the stream loses. -/
theorem not_recovered_spoken :
    Prescribed spokenSegments ∧ Json.Bears "text" spokenTurn spoken ∧
      Envelope.Carries finishedLast "All finished." ∧ Marker.Unmarked "All finished." ∧
      contentOf? .commit spokenSegments = some "0123abc".toList ∧
      CommitClaim.isHash "0123abc".toList = true ∧
      contentOf? .notes spokenSegments = some "Added a parser.".toList ∧
      (ofOutput (stream spokenTurn finishedLast)).commit ≠ some "0123abc" ∧
      (ofOutput (stream spokenTurn finishedLast)).notes ≠ some "Added a parser." := by
  have quiet : Marker.Unmarked "All finished." := unmarked_names.2.2.2.2.2
  have holds := carries_finishedLast.holds
  refine ⟨prescribed_spokenSegments, bears_spokenTurn, carries_finishedLast, quiet, rfl, rfl, rfl,
    ?_, ?_⟩
  · rw [commit_stream_lines bears_spokenTurn holds quiet commit_spoken]
    nofun
  · rw [notes_stream_lines bears_spokenTurn holds quiet notes_spoken]
    decide +kernel

end Report

end Foreman

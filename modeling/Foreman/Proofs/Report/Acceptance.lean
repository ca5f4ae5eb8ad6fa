import Foreman.Proofs.Json.Number
import Foreman.Proofs.Report.Layout

namespace Foreman

namespace Json

theorem Fields.isSome_orNull? {fs : Fields} (nodup : (fs.values.map Prod.fst).Nodup)
    (read : fs.optional? name reader = some x) (h : (name, v) ∈ fs.values) :
    (orNull? reader v).isSome := by
  rw [Fields.optional?_of_mem nodup h] at read
  rw [read]
  rfl

end Json

namespace Envelope

/-- Every member has a value that its name allows. -/
def WellTyped (members : List (String × Json)) : Prop := ∀ m ∈ members, Typed m.1 m.2

variable {members : List (String × Json)} {text : String}

theorem wellTyped_of_ofJson? (names : (members.map Prod.fst).Nodup)
    (h : ofJson? (Json.record members) = some e) : WellTyped members := by
  rintro ⟨name, v⟩ hm
  have fields := Json.fields?_record fieldNames names
  generalize hf : Json.Fields.mk false (members.filter fun m => fieldNames.contains m.1) = fs
    at fields
  have nodup : (fs.values.map Prod.fst).Nodup := by
    rw [← hf]
    exact names.sublist (List.filter_sublist.map Prod.fst)
  have found (known : fieldNames.contains name = true) : (name, v) ∈ fs.values := by
    rw [← hf]
    exact List.mem_filter.2 ⟨hm, known⟩
  simp only [ofJson?, fields, Option.bind_eq_bind, Option.bind_some, Option.bind_eq_some_iff] at h
  obtain ⟨_, -, _, turns, _, total, _, cost, _, duration, _, usage, -⟩ := h
  show Typed name v
  unfold Typed
  split
  · exact Json.Fields.isSome_orNull? nodup turns (found rfl)
  · exact Json.Fields.isSome_orNull? nodup total (found rfl)
  · exact Json.Fields.isSome_orNull? nodup cost (found rfl)
  · exact Json.Fields.isSome_orNull? nodup duration (found rfl)
  · exact Json.Fields.isSome_orNull? nodup usage (found rfl)
  · trivial

theorem carries_of_wellTyped (h : Json.Bears "result" members text) (typed : WellTyped members) :
    Carries members text where
  names := h.names
  message := h.member
  typed := typed
  others := h.others

theorem ofOutput?_of_not_wellTyped (h : Json.Bears "result" members text)
    (untyped : ¬ WellTyped members) : ofOutput? (Json.record members).compactChars = none := by
  rw [ofOutput?_record h.sound]
  cases read : ofJson? (Json.record members) with
  | none => rfl
  | some e => exact (untyped (wellTyped_of_ofJson? h.names read)).elim

end Envelope

namespace Report

variable {members members' : List (String × Json)} {text : String}

/-- Everything in a report but the metrics. -/
structure SameOutcome (r r' : Report) : Prop where
  result : r.result = r'.result
  findings : SameFindings r r'

theorem commitHash?_congr (same : commitHash? [s] = commitHash? [s']) (before : List (List Char)) :
    commitHash? (before ++ [s]) = commitHash? (before ++ [s']) := by
  induction before with
  | nil => exact same
  | cons text before ih => simp only [List.cons_append, commitHash?, ih]

/-- Two texts with the same blocks give the same findings. -/
theorem sameFindings_ofTexts {s s' : List Char}
    (bodies : ∀ m ∈ Marker.all, m.body? s = m.body? s') (before : List (List Char))
    (result result' : Option String) (metrics metrics' : Option Metrics) :
    SameFindings (ofTexts result metrics (before ++ [s]))
      (ofTexts result' metrics' (before ++ [s'])) := by
  have flag : flagReason? s = flagReason? s' := by
    rw [flagReason?_eq, flagReason?_eq, bodies _ (by decide)]
  have notes : devNotes? s = devNotes? s' := by
    rw [devNotes?_eq, devNotes?_eq, bodies _ (by decide)]
  have commit : commitHash? [s] = commitHash? [s'] := by
    rw [commitHash?_singleton, commitHash?_singleton, Marker.block?_eq (by decide),
      Marker.block?_eq (by decide), bodies _ (by decide)]
  constructor
  · simp [ofTexts, List.findSome?_append, flag]
  · simp [ofTexts, commitHash?_congr commit]
  · simp [ofTexts, List.findSome?_append, notes]

theorem ofOutput_of_not_wellTyped (h : Json.Bears "result" members text)
    (untyped : ¬ Envelope.WellTyped members) :
    ofOutput (Json.record members).compact =
      ofTexts none none [(Json.record members).compactChars] := by
  have refused := Envelope.ofOutput?_of_not_wellTyped h untyped
  have alone : Envelope.ofOutput? (Json.record members).compact.toList = none := by
    rwa [Json.compact, String.toList_ofList]
  rw [ofOutput_of_no_envelope alone, Json.compact, String.toList_ofList]

/-- A blank message counts for nothing, whether the envelope is read or not. -/
theorem ofOutput_of_blank (h : Json.Bears "result" members text) (blank : Text.Blank text.toList) :
    ∃ metrics, ofOutput (Json.record members).compact =
      ofTexts none metrics [(Json.record members).compactChars] := by
  by_cases typed : Envelope.WellTyped members
  · obtain ⟨metrics, read⟩ := ofOutput_record (Envelope.carries_of_wellTyped h typed)
    refine ⟨metrics, ?_⟩
    rw [read, ofTexts_cons_quiet (quiet_of_blank blank), shown?,
      if_pos (Text.isBlankText_iff.2 blank)]
  · exact ⟨none, ofOutput_of_not_wellTyped h typed⟩

theorem result_ofOutput_record (h : Json.Bears "result" members text)
    (said : ¬ Text.Blank text.toList) :
    (ofOutput (Json.record members).compact).result.isSome ↔ Envelope.WellTyped members := by
  constructor
  · intro shown
    apply Classical.byContradiction
    intro untyped
    rw [ofOutput_of_not_wellTyped h untyped] at shown
    cases shown
  · intro typed
    obtain ⟨metrics, read⟩ := ofOutput_record (Envelope.carries_of_wellTyped h typed)
    rw [← Text.isBlankText_iff] at said
    rw [read, ofTexts, shown?, if_neg said]
    rfl

/-- Two envelopes with one message, and no marker elsewhere, give the same report apart from the
metrics exactly if both are read or neither is, unless the message is blank. -/
theorem ofOutput_sameOutcome_iff (h : Json.Bears "result" members text)
    (h' : Json.Bears "result" members' text) :
    SameOutcome (ofOutput (Json.record members).compact)
        (ofOutput (Json.record members').compact) ↔
      Text.Blank text.toList ∨ (Envelope.WellTyped members ↔ Envelope.WellTyped members') := by
  have bodies : ∀ m ∈ Marker.all,
      m.body? (Json.record members).compactChars = m.body? (Json.record members').compactChars := by
    intro m hm
    rw [h.body? hm, h'.body? hm]
  constructor
  · intro same
    by_cases blank : Text.Blank text.toList
    · exact .inl blank
    · right
      rw [← result_ofOutput_record h blank, ← result_ofOutput_record h' blank, same.result]
  · intro same
    by_cases blank : Text.Blank text.toList
    · obtain ⟨metrics, read⟩ := ofOutput_of_blank h blank
      obtain ⟨metrics', read'⟩ := ofOutput_of_blank h' blank
      rw [read, read']
      exact ⟨rfl, sameFindings_ofTexts bodies [] ..⟩
    · have both := same.resolve_left blank
      by_cases typed : Envelope.WellTyped members
      · obtain ⟨metrics, read⟩ := ofOutput_record (Envelope.carries_of_wellTyped h typed)
        obtain ⟨metrics', read'⟩ :=
          ofOutput_record (Envelope.carries_of_wellTyped h' (both.1 typed))
        rw [read, read']
        exact ⟨rfl, sameFindings_ofTexts bodies [text.toList] ..⟩
      · rw [ofOutput_of_not_wellTyped h typed,
          ofOutput_of_not_wellTyped h' fun typed' => typed (both.2 typed')]
        exact ⟨rfl, sameFindings_ofTexts bodies [] ..⟩

/-- An envelope for a message about a commit, which took that long. -/
def timedMembers (duration : Json.Number) : List (String × Json) :=
  [("result", .ofString "COMMIT_HASH_START\n0123abc\nCOMMIT_HASH_END"),
    ("duration_ms", .number duration)]

theorem bears_timedMembers {n : Json.Number} (h : n.WellFormed) :
    Json.Bears "result" (timedMembers n) "COMMIT_HASH_START\n0123abc\nCOMMIT_HASH_END" := by
  have unmarked : Marker.Unmarked "result" ∧ Marker.Unmarked "duration_ms" := by
    unfold Marker.Unmarked
    decide
  constructor
  · simp [timedMembers]
  · simp [timedMembers]
  · exact unmarked.1
  · simp [timedMembers, unmarked.2, Json.Sound.number h]

/-- One and a half milliseconds. -/
def fractional : Json.Number := ⟨false, ['1'], ['5'], none⟩

theorem wellFormed_fractional : fractional.WellFormed := by
  constructor <;> simp [fractional] <;> decide

theorem ofOutput_sameOutcome_iff_timed :
    let whole := timedMembers (.ofNat 1)
    let text := "COMMIT_HASH_START\n0123abc\nCOMMIT_HASH_END"
    Json.Bears "result" whole text ∧ Json.Bears "result" (timedMembers fractional) text ∧
      (SameOutcome (ofOutput (Json.record whole).compact)
          (ofOutput (Json.record (timedMembers fractional)).compact) ↔
        Text.Blank text.toList ∨
          (Envelope.WellTyped whole ↔ Envelope.WellTyped (timedMembers fractional))) := by
  intro whole text
  have h := bears_timedMembers (Json.Number.wellFormed_ofNat 1)
  have h' := bears_timedMembers wellFormed_fractional
  exact ⟨h, h', ofOutput_sameOutcome_iff h h'⟩

/-- A duration with a fraction costs the agent its commit. -/
theorem not_sameOutcome_fractional :
    fractional.WellFormed ∧
      ¬ SameOutcome (ofOutput (Json.record (timedMembers (.ofNat 1))).compact)
        (ofOutput (Json.record (timedMembers fractional)).compact) := by
  refine ⟨wellFormed_fractional, ?_⟩
  rintro ⟨-, -, commit, -⟩
  revert commit
  decide +kernel

end Report

end Foreman

import Foreman.Proofs.Json.Reading

namespace Foreman.Json

theorem feed_not_mem_escapeChar (c : Char) : '\n' ∉ escapeChar c := by
  have digits : ∀ n < 0x20, '\n' ∉ hexByte n := by decide
  unfold escapeChar
  split
  case h_8 noFeed _ _ _ _ =>
    split
    · rename_i control
      simpa using digits _ control
    · intro feed
      exact noFeed (List.mem_singleton.1 feed).symm
  all_goals decide

theorem feed_not_mem_quote (s : List Char) : '\n' ∉ quote s := by
  intro feed
  simp only [quote, List.cons_append, List.mem_cons, List.mem_append, List.mem_flatMap,
    List.not_mem_nil, or_false] at feed
  rcases feed with feed | ⟨c, -, feed⟩ | feed
  · cases feed
  · exact feed_not_mem_escapeChar c feed
  · cases feed

namespace Number

/-- A number is written in digits, signs, a point and a small letter. -/
theorem WellFormed.of_mem_render {n : Number} (h : n.WellFormed) (hc : c ∈ n.render) :
    Text.isDigit c = true ∨ c ∈ ['-', '+', '.', 'e'] := by
  rw [render_eq] at hc
  simp only [List.mem_append] at hc
  rcases hc with sign | whole | fraction | exponent
  · split at sign
    · rw [List.mem_singleton.1 sign]
      exact .inr (by decide)
    · cases sign
  · exact .inl (h.whole c whole)
  · rw [fractionText] at fraction
    split at fraction
    · cases fraction
    · rcases List.mem_cons.1 fraction with rfl | fraction
      · exact .inr (by decide)
      · exact .inl (h.fraction c fraction)
  · cases he : n.exponent with
    | none =>
      rw [he] at exponent
      cases exponent
    | some e =>
      obtain ⟨negative, ds⟩ := e
      rw [he, exponentText] at exponent
      rcases List.mem_cons.1 exponent with rfl | exponent
      · exact .inr (by decide)
      · rcases List.mem_cons.1 exponent with rfl | exponent
        · cases negative <;> exact .inr (by decide)
        · exact .inl ((h.exponent negative ds he).2 c exponent)

end Number

theorem feed_not_mem_compactItems (h : ∀ v ∈ vs, '\n' ∉ compactChars v) :
    '\n' ∉ compactItems vs := by
  induction vs with
  | nil => decide
  | cons v vs ih =>
    have first := h v List.mem_cons_self
    have later := ih fun x hx => h x (List.mem_cons_of_mem v hx)
    simp [compactItems, first, later]

theorem feed_not_mem_compactMembers (h : ∀ m ∈ ms, '\n' ∉ compactChars m.2) :
    '\n' ∉ compactMembers ms := by
  induction ms with
  | nil => decide
  | cons m ms ih =>
    have first := h m List.mem_cons_self
    have later := ih fun x hx => h x (List.mem_cons_of_mem m hx)
    simp [compactMembers, quoteText, feed_not_mem_quote, first, later]

theorem Sound.feed_not_mem (h : Sound ok j) : '\n' ∉ compactChars j := by
  induction h with
  | null => decide
  | bool b => cases b <;> decide
  | number h =>
    intro feed
    rcases h.of_mem_render feed with digit | mark
    · cases digit
    · revert mark
      decide
  | string h => exact feed_not_mem_quote _
  | @array vs items ih =>
    have rest := feed_not_mem_compactItems ih
    cases vs with
    | nil => decide
    | cons v vs => simpa [compactChars, compactItems] using rest
  | @object ms names values ih =>
    have rest := feed_not_mem_compactMembers ih
    cases ms with
    | nil => decide
    | cons m ms => simpa [compactChars, compactMembers] using rest

end Foreman.Json

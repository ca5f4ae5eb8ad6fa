import Foreman.Notice.Queue

namespace Foreman.NoticeQueue

/-- The notice that the background task takes up when it makes `q'` of a queue. -/
def taken (q q' : NoticeQueue) : List String :=
  if q.delivering.isNone then q'.delivering.toList else []

/-- `History r q told handed` says that a queue has come to be `q` after the texts `told` were to be
queued, and that `handed` went to the sink meanwhile. At each step the sink is as it likes. -/
inductive History (r : Redactor) : NoticeQueue → List String → List String → Prop where
  | opened (n : Nat) : History r (ofCapacity n) [] []
  | notify (h : History r q told handed) (text : String) :
      History r (q.notify r text) (told ++ [text]) handed
  | turn (h : History r q told handed) (hs : q.step? s = some (q', s')) :
      History r q' told (handed ++ taken q q')

theorem taken_append_queued (h : q.step? s = some (q', s')) :
    taken q q' ++ q'.queued = q.queued := by
  obtain ⟨capacity, delivering, queued⟩ := q
  cases delivering with
  | some text =>
    simp only [step?] at h
    split at h <;> cases h
    rfl
  | none =>
    cases queued with
    | nil => cases h
    | cons text rest =>
      cases h
      rfl

theorem History.sublist (h : History r q told handed) :
    (handed ++ q.queued).Sublist (told.map r.redact) := by
  induction h with
  | opened n => exact List.Sublist.refl []
  | @notify q told handed h text ih =>
    rw [List.map_append]
    unfold NoticeQueue.notify
    split
    · exact ih.trans (List.sublist_append_left _ _)
    · rw [← List.append_assoc]
      exact ih.append (List.Sublist.refl _)
  | turn h hs ih =>
    rw [List.append_assoc, taken_append_queued hs]
    exact ih

/-- The sink is handed nothing but redacted notices. -/
theorem History.exists_of_mem (h : History r q told handed) (ht : text ∈ handed) :
    ∃ notice ∈ told, text = r.redact notice := by
  have member : text ∈ told.map r.redact := h.sublist.subset (List.mem_append_left _ ht)
  obtain ⟨notice, hn, same⟩ := List.mem_map.1 member
  exact ⟨notice, hn, same.symm⟩

end Foreman.NoticeQueue

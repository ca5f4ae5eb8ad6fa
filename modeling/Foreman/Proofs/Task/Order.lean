import Foreman.Proofs.Task.Book
import Foreman.Store.Basic

namespace Foreman

namespace Instant

variable {s t : Instant}

theorem before_irrefl (t : Instant) : t.before t = false := by
  simp [before]

theorem before_asymm (h : s.before t = true) : t.before s = false := by
  rw [Bool.eq_false_iff]
  intro back
  have self := before_trans h back
  rw [before_irrefl] at self
  cases self

theorem eq_of_not_before (h : s.before t = false) (h' : t.before s = false) : s = t := by
  simp only [before, decide_eq_false_iff_not, List.not_lt] at h h'
  have same : s.key = t.key := List.le_antisymm h' h
  simp only [key, List.cons.injEq, and_true] at same
  obtain ⟨year, month, day, second, nanos⟩ := same
  obtain ⟨⟨_, _, _, _⟩, _, _, _⟩ := s
  obtain ⟨⟨_, _, _, _⟩, _, _, _⟩ := t
  cases year
  cases Int.ofNat.inj month
  cases Int.ofNat.inj day
  cases Int.ofNat.inj second
  cases Int.ofNat.inj nanos
  rfl

end Instant

namespace TaskBook

/-- The tasks of a book by time of creation, those with one time in the order of insertion. -/
structure Ordered (b : TaskBook) (shown : List Task) : Prop where
  all : shown.Perm b.tasks
  ascending : shown.Pairwise fun s t => t.created.before s.created = false
  ties : ∀ time, shown.filter (·.created = time) = b.tasks.filter (·.created = time)

variable {b : TaskBook} {shown : List Task}

theorem before_or (s t : Task) :
    (!t.created.before s.created || !s.created.before t.created) = true := by
  cases h : t.created.before s.created with
  | false => rfl
  | true =>
    rw [Instant.before_asymm h]
    rfl

theorem not_before_trans (r s t : Task) (h : (!s.created.before r.created) = true)
    (h' : (!t.created.before s.created) = true) : (!t.created.before r.created) = true := by
  rw [Bool.not_eq_true'] at h h' ⊢
  rw [Bool.eq_false_iff]
  intro back
  rw [Instant.before_of_not_before back h] at h'
  cases h'

theorem ordered_byCreation (b : TaskBook) : b.Ordered b.byCreation where
  all := List.mergeSort_perm b.tasks _
  ascending := by
    have sorted := List.pairwise_mergeSort not_before_trans before_or b.tasks
    exact sorted.imp fun h => by simpa using h
  -- The tasks of one time are in order already, so that sorting leaves them in this order; and it
  -- makes no more of them.
  ties time := by
    have level : (b.tasks.filter (·.created = time)).Pairwise fun s t =>
        (!t.created.before s.created) = true := by
      apply List.pairwise_of_forall_mem_list
      intro s hs t ht
      rw [List.mem_filter, decide_eq_true_iff] at hs ht
      rw [hs.2, ht.2, Instant.before_irrefl]
      rfl
    have inside := (List.sublist_mergeSort not_before_trans before_or level
      List.filter_sublist).filter (·.created = time)
    rw [List.filter_filter] at inside
    simp only [Bool.and_self] at inside
    have number := ((List.mergeSort_perm b.tasks fun s t =>
      !t.created.before s.created).filter (·.created = time)).length_eq
    exact (inside.eq_of_length number.symm).symm

theorem filter_queued_level (time : Instant) (ts : List Task) :
    (ts.filter (·.created = time)).filter (·.status = .queued) =
      (ts.filter (·.status = .queued)).filter (·.created = time) := by
  simp only [List.filter_filter, Bool.and_comm]

theorem earliest?_eq_none {ts : List Task} : earliest? ts = none ↔ ts = [] := by
  cases ts <;> simp [earliest?]

-- The order is not determined by which task precedes which, for a task may stand in a book twice.
-- So the first task is compared with those of its own time, whose order is that of the book.
theorem Ordered.oldestQueued?_eq (h : b.Ordered shown) :
    b.oldestQueued? = shown.find? (·.status = .queued) := by
  rw [← List.head?_filter]
  have queue : (shown.filter (·.status = .queued)).Perm (b.tasks.filter (·.status = .queued)) :=
    h.all.filter _
  cases found : b.oldestQueued? with
  | none =>
    rw [oldestQueued?, earliest?_eq_none] at found
    rw [found, List.perm_nil] at queue
    rw [queue]
    rfl
  | some m =>
    obtain ⟨front, back, split, later, tail⟩ := split_of_earliest? found
    have hm : m ∈ shown.filter (·.status = .queued) := queue.mem_iff.2 (by simp [split])
    obtain ⟨x, rest, hx⟩ := List.exists_cons_of_ne_nil (List.ne_nil_of_mem hm)
    have x_first : m.created.before x.created = false := by
      have sorted := h.ascending.filter (·.status = .queued)
      rw [hx] at sorted hm
      rcases List.mem_cons.1 hm with rfl | hm
      · exact Instant.before_irrefl _
      · exact (List.pairwise_cons.1 sorted).1 m hm
    have m_first : x.created.before m.created = false := by
      have hq : x ∈ b.tasks.filter (·.status = .queued) := queue.mem_iff.1 (by simp [hx])
      rw [split, List.mem_append, List.mem_cons] at hq
      rcases hq with hq | rfl | hq
      · exact Instant.before_asymm (later x hq)
      · exact Instant.before_irrefl _
      · exact tail x hq
    have time := Instant.eq_of_not_before m_first x_first
    have none_before : front.filter (·.created = m.created) = [] := by
      rw [List.filter_eq_nil_iff]
      intro s hs
      rw [decide_eq_true_iff]
      intro same
      have self := later s hs
      rw [same, Instant.before_irrefl] at self
      cases self
    have level := congrArg (List.filter (·.status = .queued)) (h.ties m.created)
    rw [filter_queued_level, filter_queued_level, hx, split, List.filter_append, none_before,
      List.filter_cons_of_pos (by simpa using time), List.filter_cons_of_pos (by simp)] at level
    rw [hx, (List.cons.inj level).1]
    rfl

/-- The next task is the first one that the list shows as queued, and there is none exactly if the
list shows none. -/
theorem next_in_list (b : TaskBook) (o o' : Occasion) :
    ∃ shown, b.answer .list o = .ok (.tasks shown, none) ∧ b.Ordered shown ∧
      b.answer .fetch o' = .ok (.found (shown.find? (·.status = .queued)), none) ∧
      (b.answer .fetch o' = .ok (.found none, none) ↔ ∀ t ∈ shown, t.status ≠ .queued) := by
  have ordered := ordered_byCreation b
  have next := ordered.oldestQueued?_eq
  refine ⟨b.byCreation, rfl, ordered, by rw [answer, next], ?_⟩
  rw [answer, next]
  simp

end TaskBook

end Foreman

import Foreman.Task.Book

namespace Foreman

namespace TaskBook

variable {b b' : TaskBook} {id : String} {ts ts' : List Task}

/-- The status that a book has for an id. -/
def status? (b : TaskBook) (id : String) : Option Task.Status := (b.find? id).map (·.status)

theorem changeFirst?_cons (id : String) (f : Task → Task) (t : Task) (ts : List Task) :
    changeFirst? id f (t :: ts) =
      if t.id = id then some (f t :: ts) else (changeFirst? id f ts).map (t :: ·) :=
  rfl

theorem find?_changeFirst? {f : Task → Task} (same : ∀ t, (f t).id = t.id)
    (h : changeFirst? id f ts = some ts') (other : String) :
    ts'.find? (·.id == other) =
      if other = id then (ts.find? (·.id == id)).map f else ts.find? (·.id == other) := by
  induction ts generalizing ts' with
  | nil => cases h
  | cons t ts ih =>
    rw [changeFirst?_cons] at h
    by_cases ht : t.id = id
    · rw [if_pos ht] at h
      cases h
      by_cases ho : other = id
      · simp [ho, same, ht]
      · have ne : ¬ id = other := fun e => ho e.symm
        simp [ho, same, ht, ne]
    · rw [if_neg ht] at h
      obtain ⟨us, hu, rfl⟩ := Option.map_eq_some_iff.1 h
      have hb : (t.id == id) = false := beq_false_of_ne ht
      simp only [List.find?_cons, ih hu, hb]
      by_cases ho : other = id
      · simp only [ho, if_true, hb]
      · simp only [ho, if_false]

theorem changeFirst?_isSome (h : changeFirst? id f ts = some ts') :
    (ts.find? (·.id == id)).isSome = true := by
  induction ts generalizing ts' with
  | nil => cases h
  | cons t ts ih =>
    rw [changeFirst?_cons] at h
    by_cases ht : t.id = id
    · simp [ht]
    · rw [if_neg ht] at h
      obtain ⟨us, hu, -⟩ := Option.map_eq_some_iff.1 h
      simp [ht, ih hu]

theorem map_changeFirst? {f : Task → Task} {g : Task → α} (same : ∀ t, g (f t) = g t)
    (h : changeFirst? id f ts = some ts') : ts'.map g = ts.map g := by
  induction ts generalizing ts' with
  | nil => cases h
  | cons t ts ih =>
    rw [changeFirst?_cons] at h
    split at h
    · cases h
      rw [List.map_cons, List.map_cons, same]
    · obtain ⟨us, hu, rfl⟩ := Option.map_eq_some_iff.1 h
      rw [List.map_cons, List.map_cons, ih hu]

/-- A change is made where the id comes first, and all around it stays. -/
theorem changeFirst?_eq_some {f : Task → Task} :
    changeFirst? id f ts = some ts' ↔
      ∃ front t back, ts = front ++ t :: back ∧ t.id = id ∧ (∀ x ∈ front, x.id ≠ id) ∧
        ts' = front ++ f t :: back := by
  induction ts generalizing ts' with
  | nil =>
    constructor
    · nofun
    · rintro ⟨front, t, back, split, -⟩
      cases front <;> cases split
  | cons a ts ih =>
    rw [changeFirst?_cons]
    constructor
    · intro h
      split at h
      · rename_i ha
        cases h
        exact ⟨[], a, ts, rfl, ha, List.forall_mem_nil _, rfl⟩
      · rename_i ha
        obtain ⟨us, hu, rfl⟩ := Option.map_eq_some_iff.1 h
        obtain ⟨front, t, back, rfl, ht, other, rfl⟩ := ih.1 hu
        exact ⟨a :: front, t, back, rfl, ht, List.forall_mem_cons.2 ⟨ha, other⟩, rfl⟩
    · rintro ⟨front, t, back, split, ht, other, rfl⟩
      cases front with
      | nil =>
        cases split
        rw [if_pos ht]
        rfl
      | cons x front =>
        cases split
        obtain ⟨hx, other⟩ := List.forall_mem_cons.1 other
        rw [if_neg hx, ih.2 ⟨front, t, back, rfl, ht, other, rfl⟩]
        rfl

theorem changeFirst?_eq_none {f : Task → Task} :
    changeFirst? id f ts = none ↔ ∀ t ∈ ts, t.id ≠ id := by
  induction ts with
  | nil => exact ⟨fun _ => List.forall_mem_nil _, fun _ => rfl⟩
  | cons a ts ih =>
    rw [changeFirst?_cons, List.forall_mem_cons, ← ih]
    split
    · rename_i ha
      simp [ha]
    · rename_i ha
      simp [ha]

theorem split_of_find? (h : b.find? id = some t) :
    ∃ front back, b.tasks = front ++ t :: back ∧ ∀ x ∈ front, x.id ≠ id := by
  obtain ⟨-, front, back, split, other⟩ := List.find?_eq_some_iff_append.1 h
  exact ⟨front, back, split, fun x hx => by simpa using other x hx⟩

/-- Whatever a change leaves was there before, or is the changed form of a task with the id. -/
theorem mem_of_changeFirst? {f : Task → Task} (h : changeFirst? id f ts = some ts')
    (ht : t ∈ ts') : t ∈ ts ∨ ∃ t₀ ∈ ts, t₀.id = id ∧ t = f t₀ := by
  induction ts generalizing ts' with
  | nil => cases h
  | cons a ts ih =>
    rw [changeFirst?_cons] at h
    split at h
    · rename_i ha
      cases h
      rcases List.mem_cons.1 ht with rfl | ht
      · exact .inr ⟨a, List.mem_cons_self, ha, rfl⟩
      · exact .inl (List.mem_cons_of_mem _ ht)
    · obtain ⟨us, hu, rfl⟩ := Option.map_eq_some_iff.1 h
      rcases List.mem_cons.1 ht with rfl | ht
      · exact .inl List.mem_cons_self
      · rcases ih hu ht with old | ⟨t₀, h₀, changed⟩
        · exact .inl (List.mem_cons_of_mem _ old)
        · exact .inr ⟨t₀, List.mem_cons_of_mem _ h₀, changed⟩

theorem mem_of_update? (h : b.update? id u now = some b') (ht : t ∈ b'.tasks) :
    t ∈ b.tasks ∨ t.id = id ∧ t.status = u.status := by
  obtain ⟨ts, hs, rfl⟩ := Option.map_eq_some_iff.1 h
  rcases mem_of_changeFirst? hs ht with old | ⟨t₀, -, hid, rfl⟩
  · exact .inl old
  · exact .inr ⟨hid, rfl⟩

/-- A write is seen by those who look for the task it names, and by no one else. -/
theorem status?_update? (h : b.update? id u now = some b') (other : String) :
    b'.status? other = if other = id then some u.status else b.status? other := by
  obtain ⟨ts, hs, rfl⟩ := Option.map_eq_some_iff.1 h
  obtain ⟨t, ht⟩ := Option.isSome_iff_exists.1 (changeFirst?_isSome hs)
  unfold status? find?
  rw [find?_changeFirst? (f := (·.update u now)) (fun _ => rfl) hs, ht]
  split <;> rfl

theorem find?_requeueStranded (b : TaskBook) (id : String) :
    b.requeueStranded.find? id = (b.find? id).map Task.requeue := by
  have same : ∀ t : Task, t.requeue.id = t.id := fun t => by
    unfold Task.requeue
    split <;> rfl
  simp only [find?, requeueStranded, List.find?_map, Function.comp_def, same]

/-- The status of a task that is put back into the queue if it was in progress. -/
theorem status?_requeueStranded (b : TaskBook) (id : String) :
    b.requeueStranded.status? id =
      (b.status? id).map fun s => if s = .inProgress then .queued else s := by
  simp only [status?, find?_requeueStranded, Option.map_map]
  congr 1
  funext t
  simp only [Function.comp_apply, Task.requeue]
  split <;> rfl

theorem requeueStranded_queued (h : b.requeueStranded.status? id = some .queued) :
    b.status? id = some .queued ∨ b.status? id = some .inProgress := by
  rw [status?_requeueStranded] at h
  obtain ⟨s, hs, hq⟩ := Option.map_eq_some_iff.1 h
  split at hq
  · rename_i hp
    exact .inr (hp ▸ hs)
  · exact .inl (hq ▸ hs)

theorem status_ne_inProgress_of_mem_requeueStranded (h : t ∈ b.requeueStranded.tasks) :
    t.status ≠ .inProgress := by
  obtain ⟨t₀, -, rfl⟩ := List.mem_map.1 h
  unfold Task.requeue
  split
  · nofun
  · assumption

/-- Ids and times of creation, in the order of insertion. -/
def keys (b : TaskBook) : List (String × Instant) := b.tasks.map fun t => (t.id, t.created)

theorem keys_update? (h : b.update? id u now = some b') : b'.keys = b.keys := by
  obtain ⟨ts, hs, rfl⟩ := Option.map_eq_some_iff.1 h
  exact map_changeFirst? (f := (·.update u now)) (fun _ => rfl) hs

theorem keys_requeueStranded (b : TaskBook) : b.requeueStranded.keys = b.keys := by
  simp only [keys, requeueStranded, List.map_map]
  congr 1
  funext t
  simp only [Function.comp_apply, Task.requeue]
  split <;> rfl

def Distinct (b : TaskBook) : Prop := (b.keys.map (·.1)).Nodup

theorem Distinct.find? (h : b.Distinct) (ht : t ∈ b.tasks) : b.find? t.id = some t := by
  unfold Distinct keys at h
  unfold TaskBook.find?
  generalize b.tasks = ts at h ht
  induction ts with
  | nil => cases ht
  | cons s ts ih =>
    obtain ⟨fresh, rest⟩ := List.nodup_cons.1 h
    rcases List.mem_cons.1 ht with rfl | ht
    · simp
    · have ne : s.id ≠ t.id := fun same => fresh (by
        simp only [List.map_map, List.mem_map, Function.comp_apply]
        exact ⟨t, ht, same.symm⟩)
      rw [List.find?_cons, beq_false_of_ne ne]
      exact ih rest ht

theorem Distinct.status? (h : b.Distinct) (ht : t ∈ b.tasks) : b.status? t.id = some t.status := by
  rw [TaskBook.status?, h.find? ht]
  rfl

theorem Distinct.ne_of_split (h : b.Distinct) (split : b.tasks = front ++ t :: back) :
    ∀ x ∈ front ++ back, x.id ≠ t.id := by
  have ids : (b.keys.map (·.1)) = front.map (·.id) ++ t.id :: back.map (·.id) := by
    simp [keys, split, Function.comp_def]
  rw [Distinct, ids, List.perm_middle.nodup_iff, ← List.map_append] at h
  intro x hx same
  exact (List.nodup_cons.1 h).1 (List.mem_map.2 ⟨x, hx, same⟩)

theorem Distinct.ne_of_front (h : b.Distinct) (split : b.tasks = front ++ t :: back) :
    ∀ x ∈ front, x.id ≠ t.id :=
  fun x hx => h.ne_of_split split x (List.mem_append_left _ hx)

theorem exists_mem_of_status? (h : b.status? id = some s) :
    ∃ t ∈ b.tasks, t.id = id ∧ t.status = s := by
  obtain ⟨t, ht, hs⟩ := Option.map_eq_some_iff.1 h
  exact ⟨t, List.mem_of_find?_eq_some ht, by simpa using List.find?_some ht, hs⟩

/-- The ids of the tasks in progress. -/
def stranded (b : TaskBook) : List String :=
  (b.tasks.filter (·.status = .inProgress)).map (·.id)

theorem mem_stranded (h : b.status? id = some .inProgress) : id ∈ b.stranded := by
  obtain ⟨t, ht, rfl, hs⟩ := exists_mem_of_status? h
  exact List.mem_map_of_mem (List.mem_filter.2 ⟨ht, by simpa using hs⟩)

theorem requeueStranded_eq_self (h : b.stranded = []) : b.requeueStranded = b := by
  have none : ∀ t ∈ b.tasks, t.requeue = t := by
    intro t ht
    rw [stranded, List.map_eq_nil_iff, List.filter_eq_nil_iff] at h
    rw [Task.requeue, if_neg (by simpa using h t ht)]
  simp only [requeueStranded, List.map_congr_left none, List.map_id']

/-- Whether a task comes before another: it was created earlier, or at the same time and inserted
earlier. -/
def Precedes (b : TaskBook) (id other : String) : Prop :=
  ∃ (i j : Nat) (c d : Instant), b.keys[i]? = some (id, c) ∧ b.keys[j]? = some (other, d) ∧
    (c.before d = true ∨ d.before c = false ∧ i < j)

theorem precedes_congr (h : b'.keys = b.keys) : b'.Precedes id other ↔ b.Precedes id other := by
  rw [Precedes, h]
  rfl

theorem exists_lt_of_sublist {l : List α} (h : [x, y].Sublist l) :
    ∃ i j : Nat, i < j ∧ l[i]? = some x ∧ l[j]? = some y := by
  induction l with
  | nil => cases h
  | cons z l ih =>
    cases h with
    | cons _ h =>
      obtain ⟨i, j, lt, hx, hy⟩ := ih h
      exact ⟨i + 1, j + 1, Nat.succ_lt_succ lt, hx, hy⟩
    | cons_cons _ h =>
      obtain ⟨j, hy⟩ := List.mem_iff_getElem?.1 (List.singleton_sublist.1 h)
      exact ⟨0, j + 1, Nat.succ_pos j, rfl, hy⟩

/-- Of two tasks of a list, the first was created earlier, or at the same time and stands before
the second. -/
def Before (ts : List Task) (s t : Task) : Prop :=
  s.created.before t.created = true ∨ t.created.before s.created = false ∧ [s, t].Sublist ts

theorem Before.precedes (h : Before b.tasks s t) (hs : s ∈ b.tasks) (ht : t ∈ b.tasks) :
    b.Precedes s.id t.id := by
  have key {i : Nat} {t : Task} (hi : b.tasks[i]? = some t) :
      b.keys[i]? = some (t.id, t.created) := by
    rw [keys, List.getElem?_map, hi]
    rfl
  rcases h with earlier | ⟨no_later, hl⟩
  · obtain ⟨i, hi⟩ := List.mem_iff_getElem?.1 hs
    obtain ⟨j, hj⟩ := List.mem_iff_getElem?.1 ht
    exact ⟨i, j, _, _, key hi, key hj, .inl earlier⟩
  · obtain ⟨i, j, lt, hi, hj⟩ := exists_lt_of_sublist hl
    exact ⟨i, j, _, _, key hi, key hj, .inr ⟨no_later, lt⟩⟩

theorem Before.mono (h : Before ts s t) (hl : ts.Sublist ts') : Before ts' s t :=
  h.imp_right fun ⟨no_later, hs⟩ => ⟨no_later, hs.trans hl⟩

/-- The task that is left of a list was created before those in front of it, and none behind it was
created before it. -/
theorem split_foldl_earlier (t : Task) (ts : List Task) :
    ∃ front back, t :: ts = front ++ ts.foldl earlier t :: back ∧
      (∀ s ∈ front, (ts.foldl earlier t).created.before s.created = true) ∧
      ∀ s ∈ back, s.created.before (ts.foldl earlier t).created = false := by
  induction ts generalizing t with
  | nil => exact ⟨[], [], rfl, List.forall_mem_nil _, List.forall_mem_nil _⟩
  | cons a ts ih =>
    rw [List.foldl_cons]
    cases ha : a.created.before t.created with
    | true =>
      rw [earlier, if_pos ha]
      obtain ⟨front, back, split, later, tail⟩ := ih a
      have first : (ts.foldl earlier a).created.before t.created = true := by
        cases front with
        | nil => rwa [← (List.cons.inj split).1]
        | cons x front =>
          obtain ⟨rfl, -⟩ := List.cons.inj split
          exact Instant.before_trans (later a List.mem_cons_self) ha
      have whole : t :: a :: ts = t :: front ++ ts.foldl earlier a :: back :=
        congrArg (t :: ·) split
      exact ⟨t :: front, back, whole, List.forall_mem_cons.2 ⟨first, later⟩, tail⟩
    | false =>
      rw [earlier, if_neg (by rw [ha]; nofun)]
      obtain ⟨front, back, split, later, tail⟩ := ih t
      cases front with
      | nil =>
        obtain ⟨head, rfl⟩ := List.cons.inj split
        rw [← head] at tail ⊢
        exact ⟨[], a :: ts, rfl, List.forall_mem_nil _, List.forall_mem_cons.2 ⟨ha, tail⟩⟩
      | cons x front =>
        obtain ⟨rfl, rest⟩ := List.cons.inj split
        obtain ⟨first, later⟩ := List.forall_mem_cons.1 later
        have second := Instant.before_of_not_before first ha
        have whole : t :: a :: ts = t :: a :: front ++ ts.foldl earlier t :: back :=
          congrArg (fun rest => t :: a :: rest) rest
        refine ⟨t :: a :: front, back, whole, ?_, tail⟩
        exact List.forall_mem_cons.2 ⟨first, List.forall_mem_cons.2 ⟨second, later⟩⟩

theorem split_of_earliest? (h : earliest? ts = some m) :
    ∃ front back, ts = front ++ m :: back ∧ (∀ s ∈ front, m.created.before s.created = true) ∧
      ∀ s ∈ back, s.created.before m.created = false := by
  cases ts with
  | nil => cases h
  | cons t ts =>
    cases h
    exact split_foldl_earlier t ts

theorem earliest?_spec (h : earliest? ts = some m) :
    m ∈ ts ∧ ∀ s ∈ ts, s = m ∨ Before ts m s := by
  obtain ⟨front, back, rfl, later, tail⟩ := split_of_earliest? h
  refine ⟨by simp, fun s hs => ?_⟩
  rcases List.mem_append.1 hs with hs | hs
  · exact .inr (.inl (later s hs))
  · rcases List.mem_cons.1 hs with rfl | hs
    · exact .inl rfl
    · have order : [m, s].Sublist (m :: back) := (List.singleton_sublist.2 hs).cons_cons m
      exact .inr (.inr ⟨tail s hs, order.trans (List.sublist_append_right front _)⟩)

/-- The task that a look for the oldest queued task finds is queued and comes before every other
queued task. -/
theorem oldestQueued?_spec (h : b.oldestQueued? = some t) :
    t ∈ b.tasks ∧ t.status = .queued ∧
      ∀ s ∈ b.tasks, s.status = .queued → s = t ∨ b.Precedes t.id s.id := by
  obtain ⟨ht, first⟩ := earliest?_spec h
  rw [List.mem_filter, decide_eq_true_iff] at ht
  refine ⟨ht.1, ht.2, fun s hs queued => ?_⟩
  have queue : s ∈ b.tasks.filter (·.status = .queued) :=
    List.mem_filter.2 ⟨hs, by simpa using queued⟩
  exact (first s queue).imp_right fun before =>
    (before.mono List.filter_sublist).precedes ht.1 hs

end TaskBook

end Foreman

import Foreman.Proofs.Toml.Line

namespace Foreman.Toml

/-- A text that is written for these lines, with empty lines anywhere between them. -/
inductive Spelled : List Char → List Line → Prop
  | nil : Spelled [] []
  | feed (rest : Spelled s ls) : Spelled ('\n' :: s) ls
  | line (solid : Solid c) (read : ∀ r, line? (c :: text ++ r) = some (l, '\n' :: r))
      (rest : Spelled s ls) : Spelled (c :: text ++ s) (l :: ls)

theorem lines_feed (fuel : Nat) (s : List Char) :
    lines (fuel + 1) ('\n' :: s) = lines (fuel + 1) s := by
  rw [lines, lines]
  rfl

theorem Spelled.lines (h : Spelled s ls) (enough : ls.length < fuel) :
    Toml.lines fuel s = some ls := by
  obtain ⟨fuel, rfl⟩ := Nat.exists_eq_succ_of_ne_zero (Nat.ne_zero_of_lt enough)
  induction h generalizing fuel with
  | nil => rfl
  | feed _ ih => rw [lines_feed, ih fuel enough]
  | @line c text l s ls solid read _ ih =>
    obtain ⟨fuel, rfl⟩ := Nat.exists_eq_succ_of_ne_zero
      (Nat.ne_zero_of_lt (Nat.lt_of_succ_lt_succ enough))
    have later := ih fuel (Nat.lt_of_succ_lt_succ enough)
    rw [← lines_feed] at later
    rw [List.cons_append, Toml.lines, solid.skipGap]
    change (line? (c :: text ++ s)).bind _ = _
    rw [read]
    change (Toml.lines (fuel + 1) ('\n' :: s)).map (l :: ·) = _
    rw [later]
    rfl

theorem Spelled.length_le (h : Spelled s ls) : ls.length ≤ s.length := by
  induction h with
  | nil => exact Nat.le_refl 0
  | feed _ ih => exact Nat.le_succ_of_le ih
  | line _ _ _ ih =>
    simp only [List.length_cons, List.cons_append, List.length_append]
    omega

theorem Spelled.dropMark (h : Spelled s ls) : Toml.dropMark s = s := by
  unfold Toml.dropMark
  split
  · cases h with
    | line solid => exact (solid.mark rfl).elim
  · rfl

theorem Spelled.append (h : Spelled s ls) (h' : Spelled t ms) : Spelled (s ++ t) (ls ++ ms) := by
  induction h with
  | nil => exact h'
  | feed _ ih => exact .feed ih
  | line solid read _ ih =>
    rw [List.append_assoc]
    exact .line solid read ih

def headerLine (names : List String) : List Line :=
  match names.getLast? with
  | none => []
  | some name => [.table ⟨names.dropLast, name⟩]

def Section.lines (s : Section) : List Line :=
  headerLine s.header ++ s.entries.map fun e => .entry ⟨[], e.1⟩ e.2.toToml

theorem spelled_writeEntry {e : String × Written} (fits : e.2.Fits) :
    Spelled (writeEntry e) [.entry ⟨[], e.1⟩ e.2.toToml] := by
  have read := line?_writeEntry fits e.1
  obtain ⟨c, tail, same, opens⟩ := exists_writeKey e.1.toList
  have whole : writeEntry e = c :: (tail ++ [' ', '=', ' '] ++ e.2.write ++ ['\n']) := by
    simp [writeEntry, same]
  rw [whole] at read ⊢
  have one := Spelled.line opens.solid read .nil
  rwa [List.append_nil] at one

theorem spelled_writeHeader (names : List String) :
    Spelled (writeHeader names) (headerLine names) := by
  rcases List.eq_nil_or_concat names with rfl | ⟨tables, name, rfl⟩
  · exact .nil
  · rw [List.concat_eq_append]
    have read := line?_writeHeader tables name
    have bracket : Solid '[' := ⟨rfl, by decide, by decide, by decide, by decide⟩
    rw [writeHeader_eq (by simp)] at read ⊢
    have one := Spelled.line bracket read .nil
    rw [List.append_nil] at one
    simpa [headerLine] using one

theorem spelled_write {sec : Section} (fits : ∀ e ∈ sec.entries, e.2.Fits) :
    Spelled sec.write sec.lines := by
  apply (spelled_writeHeader sec.header).append
  generalize sec.entries = es at fits
  induction es with
  | nil => exact .nil
  | cons e es ih =>
    exact (spelled_writeEntry (fits e List.mem_cons_self)).append
      (ih fun e' he => fits e' (List.mem_cons_of_mem _ he))

theorem spelled_writeDocument {ss : List Section} (fits : ∀ s ∈ ss, ∀ e ∈ s.entries, e.2.Fits) :
    Spelled (writeDocument ss) (ss.flatMap Section.lines) := by
  rw [writeDocument]
  induction ss with
  | nil => exact .nil
  | cons s ss ih =>
    have first := spelled_write (fits s List.mem_cons_self)
    have later := ih fun s' hs => fits s' (List.mem_cons_of_mem _ hs)
    cases ss with
    | nil => simpa using first
    | cons s' ss =>
      have whole : ['\n'].intercalate ((s :: s' :: ss).map Section.write) =
          s.write ++ '\n' :: ['\n'].intercalate ((s' :: ss).map Section.write) := by simp
      rw [whole, List.flatMap_cons]
      exact first.append later.feed

/-- A name that is not taken. -/
def Members.Lacks (ms : Members) (name : String) : Prop := ∀ e ∈ ms, e.1 ≠ name

theorem Members.Lacks.lookup {ms : Members} (h : ms.Lacks name) : List.lookup name ms = none := by
  rw [List.lookup_eq_none_iff]
  intro e he
  simpa using (h e he).symm

theorem Members.Lacks.lookup_append {front : Members} (h : front.Lacks name) (n : Node) :
    (front ++ [(name, n)]).lookup name = some n := by
  rw [List.lookup_append, h.lookup]
  simp

theorem Members.Lacks.put_append {front : Members} (h : front.Lacks name) (m n : Node) :
    Members.put name n (front ++ [(name, m)]) = front ++ [(name, n)] := by
  induction front with
  | nil => simp [Members.put]
  | cons e front ih =>
    have later := ih fun e' he => h e' (List.mem_cons_of_mem _ he)
    rw [List.cons_append, Members.put, if_neg (h e List.mem_cons_self), later]
    rfl

theorem Members.Lacks.append {front : Members} (h : front.Lacks name) (ne : other ≠ name)
    (n : Node) :
    Members.Lacks (front ++ [(other, n)]) name := by
  intro e he
  rcases List.mem_append.1 he with old | new
  · exact h e old
  · rw [List.mem_singleton.1 new]
    exact ne

/-- The way to the table that was opened last: what stood in each table before the next was opened
in it, and under which name. -/
inductive Spine where
  | top
  | inside (front : Members) (name : String) (rest : Spine)

namespace Spine

def names : Spine → List String
  | top => []
  | inside _ name rest => name :: rest.names

/-- All members, where these are those of the last table. -/
def fill : Spine → Members → Members
  | top, ms => ms
  | inside front name rest, ms => front ++ [(name, .table .header (rest.fill ms))]

/-- No table was opened under a name that was taken. -/
def Fresh : Spine → Prop
  | top => True
  | inside front name rest => front.Lacks name ∧ rest.Fresh

/-- The way to a table that is opened in the last one. -/
def next : Spine → Members → String → Spine
  | top, ms, name => inside ms name top
  | inside front name rest, ms, name' => inside front name (rest.next ms name')

variable {spine : Spine} {ms : Members} {name : String}

theorem names_next (spine : Spine) (ms : Members) (name : String) :
    (spine.next ms name).names = spine.names ++ [name] := by
  induction spine with
  | top => rfl
  | inside front name rest ih => rw [next, names, ih, names, List.cons_append]

theorem fill_next (spine : Spine) (ms : Members) (name : String) (sub : Members) :
    (spine.next ms name).fill sub = spine.fill (ms ++ [(name, .table .header sub)]) := by
  induction spine with
  | top => rfl
  | inside front name rest ih => rw [next, fill, ih, fill]

theorem Fresh.next (h : spine.Fresh) (lacks : ms.Lacks name) : (spine.next ms name).Fresh := by
  induction spine with
  | top => exact ⟨lacks, trivial⟩
  | inside front name rest ih => exact ⟨h.1, ih h.2⟩

/-- A change at the end of the way is one of all members. -/
theorem Fresh.descend (h : spine.Fresh) (change : Origin → Members → Option Members)
    (ms : Members) :
    Toml.descend false change spine.names .header (spine.fill ms) =
      (change .header ms).map spine.fill := by
  induction spine with
  | top =>
    rw [names, Toml.descend]
    exact (congrFun Option.map_id (change .header ms)).symm
  | inside front name rest ih =>
    obtain ⟨lacks, fresh⟩ := h
    rw [names, fill, Toml.descend, lacks.lookup_append]
    change (Toml.descend false change rest.names .header (rest.fill ms)).map _ = _
    rw [ih fresh, Option.map_map]
    congr 1
    funext sub
    exact lacks.put_append _ _

def draft (spine : Spine) (ms : Members) : Draft := ⟨spine.fill ms, spine.names⟩

theorem Fresh.add?_entry (h : spine.Fresh) (lacks : ms.Lacks name) (v : Toml) :
    (spine.draft ms).add? (.entry ⟨[], name⟩ v) =
      some (spine.draft (ms ++ [(name, .value v)])) := by
  have assign : Members.assign ⟨[], name⟩ v ms = some (ms ++ [(name, .value v)]) := by
    simp [Members.assign, Toml.descend, lacks.lookup]
  simp only [Draft.add?, draft, h.descend, assign, Option.map_some]

theorem Fresh.add?_table (h : spine.Fresh) (lacks : ms.Lacks name) (current : List String) :
    Draft.add? ⟨spine.fill ms, current⟩ (.table ⟨spine.names, name⟩) =
      some ((spine.next ms name).draft []) := by
  simp [Draft.add?, draft, Members.openTable, h.descend, lacks.lookup, fill_next, names_next]

def nodes (es : List (String × Written)) : Members := es.map fun e => (e.1, .value e.2.toToml)

theorem Fresh.foldlM_entries (h : spine.Fresh) {es : List (String × Written)}
    (distinct : (es.map (·.1)).Nodup) (lacks : ∀ e ∈ es, ms.Lacks e.1) :
    (es.map fun e => Line.entry ⟨[], e.1⟩ e.2.toToml).foldlM Draft.add? (spine.draft ms) =
      some (spine.draft (ms ++ nodes es)) := by
  induction es generalizing ms with
  | nil => simp [nodes]
  | cons e es ih =>
    obtain ⟨other, distinct⟩ := List.nodup_cons.1 distinct
    have lacks' : ∀ e' ∈ es, Members.Lacks (ms ++ [(e.1, .value e.2.toToml)]) e'.1 := by
      intro e' he
      apply (lacks e' (List.mem_cons_of_mem _ he)).append
      intro same
      exact other (List.mem_map.2 ⟨e', he, same.symm⟩)
    rw [List.map_cons, List.foldlM_cons, h.add?_entry (lacks e List.mem_cons_self)]
    change List.foldlM Draft.add? (spine.draft _) _ = _
    rw [ih distinct lacks', List.append_assoc]
    rfl

end Spine

/-- A table as a document shows it: its entries, and then the tables in it, each in a section of its
own. -/
inductive Layout where
  | table (entries : List (String × Written)) (inner : List (String × Layout))

namespace Layout

mutual

def sections (path : List String) : Layout → List Section
  | table es inner => ⟨path, es⟩ :: innerSections path inner

def innerSections (path : List String) : List (String × Layout) → List Section
  | [] => []
  | (name, l) :: inner => l.sections (path ++ [name]) ++ innerSections path inner

end

mutual

def nodes : Layout → Members
  | table es inner => Spine.nodes es ++ innerNodes inner

def innerNodes : List (String × Layout) → Members
  | [] => []
  | (name, l) :: inner => (name, .table .header l.nodes) :: innerNodes inner

end

mutual

/-- No table has two members of one name. -/
def Distinct : Layout → Prop
  | table es inner => (es.map (·.1) ++ inner.map (·.1)).Nodup ∧ InnerDistinct inner

def InnerDistinct : List (String × Layout) → Prop
  | [] => True
  | (_, l) :: inner => l.Distinct ∧ InnerDistinct inner

end

/-- The lines of a table behind its header. -/
def lines (path : List String) : Layout → List Line
  | table es inner =>
    es.map (fun e => .entry ⟨[], e.1⟩ e.2.toToml) ++
      (innerSections path inner).flatMap Section.lines

theorem flatMap_sections (path : List String) (l : Layout) :
    (l.sections path).flatMap Section.lines = headerLine path ++ l.lines path := by
  cases l with
  | table es inner => rw [sections, List.flatMap_cons, Section.lines, lines, List.append_assoc]

theorem foldlM_append_of_eq_some {d d' : Draft} {ls : List Line}
    (first : ls.foldlM Draft.add? d = some d') (ls' : List Line) :
    (ls ++ ls').foldlM Draft.add? d = ls'.foldlM Draft.add? d' := by
  rw [List.foldlM_append, first]
  rfl

theorem lacks_nodes {es : List (String × Written)} (h : name ∉ es.map (·.1)) :
    (Spine.nodes es).Lacks name := by
  intro e he
  obtain ⟨e', he', rfl⟩ := List.mem_map.1 he
  rintro rfl
  exact h (List.mem_map_of_mem he')

mutual

/-- The lines of a table give its members. -/
theorem foldlM_lines {spine : Spine} (fresh : spine.Fresh) :
    ∀ {l : Layout}, l.Distinct → ∃ current,
      (l.lines spine.names).foldlM Draft.add? (spine.draft []) = some ⟨spine.fill l.nodes, current⟩
  | table es inner, distinct => by
    obtain ⟨names, within⟩ := distinct
    obtain ⟨own, others, apart⟩ := List.nodup_append.1 names
    -- The entries come first, and no table that is opened behind them has the name of one.
    have free : ∀ e ∈ es, Members.Lacks [] e.1 := fun _ _ => nofun
    have entries := fresh.foldlM_entries own free
    have lacks : ∀ l ∈ inner, (Spine.nodes es).Lacks l.1 := by
      intro l hl
      apply lacks_nodes
      intro member
      exact apart _ member _ (List.mem_map_of_mem hl) rfl
    obtain ⟨current, built⟩ := foldlM_inner fresh others lacks within spine.names
    refine ⟨current, ?_⟩
    rw [lines, foldlM_append_of_eq_some entries, nodes]
    exact built

theorem foldlM_inner {spine : Spine} (fresh : spine.Fresh) {ms : Members} :
    ∀ {inner : List (String × Layout)}, (inner.map (·.1)).Nodup → (∀ l ∈ inner, ms.Lacks l.1) →
      InnerDistinct inner → ∀ current, ∃ current',
        ((innerSections spine.names inner).flatMap Section.lines).foldlM Draft.add?
            ⟨spine.fill ms, current⟩ =
          some ⟨spine.fill (ms ++ innerNodes inner), current'⟩
  | [], _, _, _, current => ⟨current, by rw [innerSections, innerNodes, List.append_nil]; rfl⟩
  | (name, l) :: inner, names, lacks, distinct, current => by
    obtain ⟨own, within⟩ := distinct
    obtain ⟨other, names⟩ := List.nodup_cons.1 names
    have lacksOwn := lacks (name, l) List.mem_cons_self
    -- The header puts an empty table at the end of the way, which the lines behind it fill.
    have opened : (headerLine (spine.names ++ [name])).foldlM Draft.add? ⟨spine.fill ms, current⟩ =
        some ((spine.next ms name).draft []) := by
      have header : headerLine (spine.names ++ [name]) = [.table ⟨spine.names, name⟩] := by
        simp [headerLine]
      rw [header, List.foldlM_cons, fresh.add?_table lacksOwn current]
      rfl
    obtain ⟨between, first⟩ := foldlM_lines (fresh.next lacksOwn) own
    rw [Spine.names_next, Spine.fill_next] at first
    have lacks' : ∀ l' ∈ inner, Members.Lacks (ms ++ [(name, .table .header l.nodes)]) l'.1 := by
      intro l' hl
      apply (lacks l' (List.mem_cons_of_mem _ hl)).append
      intro same
      exact other (List.mem_map.2 ⟨l', hl, same.symm⟩)
    obtain ⟨current', rest⟩ := foldlM_inner fresh names lacks' within between
    refine ⟨current', ?_⟩
    rw [innerSections, List.flatMap_append, flatMap_sections, List.append_assoc,
      foldlM_append_of_eq_some opened, foldlM_append_of_eq_some first, rest, innerNodes,
      List.append_assoc]
    rfl

end

end Layout

theorem membersToToml_append (ms ms' : Members) :
    membersToToml (ms ++ ms') = membersToToml ms ++ membersToToml ms' := by
  induction ms with
  | nil => rw [membersToToml, List.nil_append, List.nil_append]
  | cons e ms ih => rw [List.cons_append, membersToToml, membersToToml, ih, List.cons_append]

theorem membersToToml_nodes (es : List (String × Written)) :
    membersToToml (Spine.nodes es) = es.map fun e => (e.1, e.2.toToml) := by
  induction es with
  | nil => rfl
  | cons e es ih =>
    rw [Spine.nodes] at ih
    rw [Spine.nodes, List.map_cons, List.map_cons, membersToToml, Node.toToml, ih]

/-- A document is read as the tables that it was laid out for. -/
theorem document?_writeDocument {l : Layout} (distinct : l.Distinct)
    (fits : ∀ s ∈ l.sections [], ∀ e ∈ s.entries, e.2.Fits) :
    document? (writeDocument (l.sections []) ++ ['\n']) = some (membersToToml l.nodes) := by
  have spelled := (spelled_writeDocument fits).append (.feed .nil)
  rw [List.append_nil] at spelled
  have top : Spine.Fresh .top := trivial
  obtain ⟨current, built⟩ := Layout.foldlM_lines top distinct
  have whole : ((l.sections []).flatMap Section.lines).foldlM Draft.add? .empty =
      some ⟨l.nodes, current⟩ := by
    rw [Layout.flatMap_sections]
    exact built
  rw [document?, spelled.dropMark]
  change (Toml.lines _ _).bind _ = _
  rw [spelled.lines (Nat.lt_succ_of_le spelled.length_le), Option.bind_some, whole]
  rfl

end Foreman.Toml

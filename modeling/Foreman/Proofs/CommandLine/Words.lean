import Foreman.CommandLine.Basic
import Foreman.Proofs.Text.Search

/-!
# What is written on a command line

The items of a level are its options with their values, its flags and its words. How they are
written is said here without regard to how they are read; behind two dashes there are only words.
-/

namespace Foreman.CommandLine

theorem ok_of_bind {x : Except ε α} {f : α → Except ε β} (h : (x >>= f) = .ok b) :
    ∃ a, x = .ok a ∧ f a = .ok b := by
  cases x with
  | error e => cases h
  | ok a => exact ⟨a, rfl, h⟩

/-- What the words of a level say. -/
inductive Item where
  | option (name value : String)
  | flag (name : String)
  | word (w : String)
deriving DecidableEq

def Item.word? : Item → Option String
  | word w => some w
  | _ => none

def wordsOf (items : List Item) : List String := items.filterMap Item.word?

/-- How the name of an option or a flag is written. -/
def dashed (name : String) : String := "--" ++ name

/-- A word that is no option and no flag. A single dash is such a word. -/
def Plain (w : String) : Prop := w = "-" ∨ ∀ rest, w.toList ≠ '-' :: rest

def Grammar.HasOption (g : Grammar) (name : String) : Prop := name ∈ g.options.map (·.1)

/-- How an item is written as one word. -/
inductive Item.Writes (g : Grammar) : String → Item → Prop where
  | option (known : g.HasOption name) (value : String) :
      Writes g (dashed name ++ "=" ++ value) (.option name value)
  | flag (known : name ∈ g.flags) : Writes g (dashed name) (.flag name)
  | word (plain : Plain w) : Writes g w (.word w)

/-- How items are written. -/
inductive Spelled (g : Grammar) : List String → List Item → Prop where
  | nil : Spelled g [] []
  | one (written : item.Writes g w) (rest : Spelled g ws items) :
      Spelled g (w :: ws) (item :: items)
  | two (known : g.HasOption name) (plain : Plain value) (rest : Spelled g ws items) :
      Spelled g (dashed name :: value :: ws) (.option name value :: items)
  | ended (ws : List String) : Spelled g ("--" :: ws) (ws.map .word)

/-- The one value that the items give to an option, if any. -/
def Gives (items : List Item) (name : String) (value : Option String) : Prop :=
  ∀ v, value = some v ↔ .option name v ∈ items

/-- What a command is when it has this name and these items. -/
def Command.WrittenBy (name : String) (items : List Item) : Command → Prop
  | run sink =>
    name = "run" ∧ wordsOf items = [] ∧
      ((∀ v, .option "notify" v ∉ items) ∧ sink = .standardOutput ∨
        ∃ v, .option "notify" v ∈ items ∧ NoticeSink.ofName? v = some sink)
  | add d =>
    name = "add" ∧ wordsOf items = [d.title] ∧ Gives items "description" d.description ∧
      Gives items "area" d.area ∧ Gives items "notes" d.notes ∧
      d.status = if .flag "backlog" ∈ items then some .backlog else none
  | list status => name = "list" ∧ wordsOf items = [] ∧ Gives items "status" status
  | queue id => name = "queue" ∧ wordsOf items = [id]
  | cancel id => name = "cancel" ∧ wordsOf items = [id]

/-- The words in front of a command's name and behind it say what an invocation is. -/
def Invocation.Written (ws : List String) (i : Invocation) : Prop :=
  ∃ before name behind top items inner outer,
    ws = before ++ name :: behind ∧ "--" ∉ before ∧ Spelled topGrammar before top ∧
      wordsOf top = [] ∧ Spelled (grammarOf name) behind items ∧ i.command.WrittenBy name items ∧
      Gives items "config" inner ∧ Gives top "config" outer ∧
      i.settings = (inner.or outer).getD ".dispatcher/config.toml"

theorem toList_dashed (name : String) : (dashed name).toList = '-' :: '-' :: name.toList := by
  rw [dashed, String.toList_append]
  rfl

theorem dashed_inj : dashed a = dashed b ↔ a = b := by
  rw [← String.toList_inj, toList_dashed, toList_dashed, ← String.toList_inj]
  simp

theorem Plain.ne_dashed (h : Plain w) (name : String) : w ≠ dashed name := by
  rintro rfl
  rcases h with dash | other
  · have letters := congrArg String.toList dash
    rw [toList_dashed] at letters
    cases letters
  · exact other _ (toList_dashed name)

namespace Words

/-- One level has read some items more than another one. -/
structure Adds (g : Grammar) (r : Words) (items : List Item) (r' : Words) : Prop where
  option : ∀ n v, r'.option? n = some v ↔ r.option? n = some v ∨ .option n v ∈ items
  allowed : ∀ n v, .option n v ∈ items →
    ∃ allowed, g.options.lookup n = some allowed ∧ allowed v = true
  flag : ∀ n, n ∈ r'.flags ↔ n ∈ r.flags ∨ .flag n ∈ items
  words : r'.positionals = r.positionals ++ wordsOf items
  fits : r.positionals.length ≤ g.positionals → r'.positionals.length ≤ g.positionals

/-- How a word is read that names no subcommand. -/
inductive Step (g : Grammar) (r : Words) (w : String) (r' : Words) : Prop where
  | item (written : item.Writes g w) (settled : r.settle g = .ok r₀)
      (adds : Adds g r₀ [item] r') (held : r'.held = none)
  | opens (written : w = dashed name) (known : g.HasOption name) (settled : r.settle g = .ok r₀)
      (after : r' = { r₀ with held := some (name, none) })
  | fills (before : r.held = some (name, none)) (plain : Plain w)
      (after : r' = { r with held := some (name, some w) })

variable {g : Grammar} {r r' r'' : Words} {w name value : String} {ws rest : List String}
  {items more : List Item}

namespace Adds

theorem refl (g : Grammar) (r : Words) : Adds g r [] r where
  option _ _ := by simp
  allowed _ _ := nofun
  flag _ := by simp
  words := (List.append_nil _).symm
  fits := id

theorem of_held (h : Adds g { r with held := waiting } items r') : Adds g r items r' :=
  ⟨h.option, h.allowed, h.flag, h.words, h.fits⟩

theorem trans (h : Adds g r items r') (h' : Adds g r' more r'') :
    Adds g r (items ++ more) r'' where
  option n v := by rw [h'.option, h.option, List.mem_append, or_assoc]
  allowed n v hm := (List.mem_append.1 hm).elim (h.allowed n v) (h'.allowed n v)
  flag n := by rw [h'.flag, h.flag, List.mem_append, or_assoc]
  words := by rw [h'.words, h.words, List.append_assoc, wordsOf, wordsOf, ← List.filterMap_append,
    ← wordsOf]
  fits := h'.fits ∘ h.fits

end Adds

/-- The name of an option whose value is still to come. -/
def opened (r : Words) : List String :=
  match r.held with
  | some (name, none) => [dashed name]
  | _ => []

/-- The option whose value has come, and is still to be looked at. -/
def pending (r : Words) : List Item :=
  match r.held with
  | some (name, some value) => [.option name value]
  | _ => []

theorem accept_adds (h : r.accept g name value = .ok r') :
    Adds g r [.option name value] r' ∧ r'.held = r.held := by
  unfold accept at h
  split at h
  · rename_i allowed known
    split at h
    · rename_i fresh
      cases h
      obtain ⟨unset, ok⟩ := Bool.and_eq_true_iff.1 fresh
      have unset : r.option? name = none := Option.isNone_iff_eq_none.1 unset
      refine ⟨⟨fun n v => ?_, fun n v hm => ?_, fun _ => by simp, (List.append_nil _).symm, id⟩,
        rfl⟩
      · rw [option?, List.lookup_cons]
        by_cases same : n = name
        · subst same
          simp [unset, eq_comm]
        · simp [same, beq_false_of_ne same, option?]
      · cases List.mem_singleton.1 hm
        exact ⟨allowed, known, ok⟩
    · cases h
  · cases h

theorem settle_adds (h : r.settle g = .ok r') :
    Adds g r r.pending r' ∧ r.opened = [] ∧ r'.held = none := by
  unfold settle at h
  split at h
  · rename_i held
    cases h
    rw [pending, opened, held]
    exact ⟨.refl g r, rfl, rfl⟩
  · cases h
  · rename_i name value held
    obtain ⟨adds, same⟩ := accept_adds h
    rw [pending, opened, held]
    exact ⟨adds.of_held, rfl, same⟩

theorem stop_ne_ok (r : Words) (s : Stop) : r.stop g s ≠ .ok r' := by
  intro h
  obtain ⟨settled, -, h⟩ := ok_of_bind h
  cases h

theorem letter_ne_ok (r : Words) (c : Char) : r.letter g c ≠ .ok r' := by
  intro h
  unfold letter at h
  split at h
  · exact stop_ne_ok r _ h
  · split at h
    · exact stop_ne_ok r _ h
    · cases h

theorem hasOption_of_lookup (h : g.options.lookup name = some allowed) : g.HasOption name := by
  obtain ⟨front, back, same, -⟩ := List.lookup_eq_some_iff.1 h
  rw [Grammar.HasOption, same]
  simp

theorem step_joined (h : r.joined g name value = .ok r') :
    Step g r (dashed name ++ "=" ++ value) r' := by
  obtain ⟨r₀, settled, h⟩ := ok_of_bind h
  obtain ⟨adds, held⟩ := accept_adds h
  obtain ⟨-, -, idle⟩ := settle_adds settled
  obtain ⟨allowed, known, -⟩ := adds.allowed name value (List.mem_singleton_self _)
  exact .item (.option (hasOption_of_lookup known) value) settled adds (held.trans idle)

theorem step_bare (h : r.bare g name = .ok r') : Step g r (dashed name) r' := by
  unfold bare at h
  split at h
  · exact (stop_ne_ok r _ h).elim
  · split at h
    · exact (stop_ne_ok r _ h).elim
    · split at h
      · rename_i flag
        obtain ⟨r₀, settled, h⟩ := ok_of_bind h
        obtain ⟨-, -, idle⟩ := settle_adds settled
        split at h
        · cases h
        · cases h
          have adds : Adds g r₀ [.flag name] { r₀ with flags := name :: r₀.flags } :=
            ⟨fun _ _ => by simp [option?], nofun, fun n => by simp [or_comm],
              (List.append_nil _).symm, id⟩
          exact .item (.flag (List.contains_iff_mem.1 flag)) settled adds idle
      · split at h
        · rename_i known
          obtain ⟨r₀, settled, h⟩ := ok_of_bind h
          obtain ⟨allowed, known⟩ := Option.isSome_iff_exists.1 known
          cases h
          exact .opens rfl (hasOption_of_lookup known) settled rfl
        · cases h

theorem positional_adds (h : r.positional g w = .ok r') :
    ∃ r₀, r.settle g = .ok r₀ ∧ Adds g r₀ [.word w] r' ∧ r'.held = none := by
  obtain ⟨r₀, settled, h⟩ := ok_of_bind h
  obtain ⟨-, -, idle⟩ := settle_adds settled
  split at h
  · rename_i room
    cases h
    refine ⟨r₀, settled, ⟨fun _ _ => by simp [option?], nofun, fun _ => by simp, rfl, fun _ => ?_⟩,
      idle⟩
    rw [List.length_append]
    exact room
  · cases h

theorem step_word (h : r.word g w = .ok r') : Step g r w r' := by
  unfold word at h
  split at h
  · rename_i inner written
    split at h
    · rename_i before behind cut
      have joined : w = dashed (String.ofList before) ++ "=" ++ String.ofList behind := by
        rw [← String.toList_inj, written, String.toList_append, String.toList_append, toList_dashed,
          (Text.cut?_eq_some (List.cons_ne_nil _ _) cut).1]
        simp
      rw [joined]
      exact step_joined h
    · have bare : w = dashed (String.ofList inner) := by
        rw [← String.toList_inj, written, toList_dashed, String.toList_ofList]
      rw [bare]
      exact step_bare h
  · exact (letter_ne_ok r _ h).elim
  · rename_i undashed unlettered
    have plain : Plain w := by
      by_cases dashes : ∃ rest, w.toList = '-' :: rest
      · obtain ⟨rest, written⟩ := dashes
        cases rest with
        | nil => exact .inl (String.toList_inj.1 written)
        | cons c rest => exact (unlettered c rest written).elim
      · exact .inr (not_exists.1 dashes)
    split at h
    · rename_i name held
      cases h
      exact .fills held plain rfl
    · obtain ⟨r₀, settled, adds, held⟩ := positional_adds h
      exact .item (.word plain) settled adds held

/-- The option that waits for its value or a look at it is one that the level takes. -/
def Knows (g : Grammar) (r : Words) : Prop := ∀ name v, r.held = some (name, v) → g.HasOption name

theorem Knows.step (known : r.Knows g) (step : Step g r w r') : r'.Knows g := by
  intro name v same
  cases step with
  | item written settled adds held =>
    rw [held] at same
    cases same
  | opens written named settled after =>
    subst after
    cases same
    exact named
  | fills before plain after =>
    subst after
    cases same
    exact known _ _ before

/-- What is read after one word was written behind it. -/
theorem Step.spelled (step : Step g r w r') (known : r.Knows g)
    (spelled : Spelled g (r'.opened ++ ws) items) (adds : Adds g r' (r'.pending ++ items) r'') :
    ∃ all, Spelled g (r.opened ++ w :: ws) all ∧ Adds g r (r.pending ++ all) r'' := by
  cases step with
  | @item r₀ item written settled said held =>
    obtain ⟨before, opened, -⟩ := settle_adds settled
    rw [Words.opened, held] at spelled
    rw [pending, held] at adds
    rw [opened]
    exact ⟨item :: items, .one written spelled, before.trans (said.trans adds)⟩
  | @opens name r₀ written named settled after =>
    obtain ⟨before, opened, -⟩ := settle_adds settled
    subst after
    rw [opened, written]
    exact ⟨items, spelled, before.trans adds.of_held⟩
  | @fills name before plain after =>
    subst after
    rw [opened, pending, before]
    exact ⟨.option name w :: items, .two (known name none before) plain spelled, adds.of_held⟩

/-- Behind two dashes there are only words. -/
theorem read_ended (h : read g true r ws = .ok (r', rest)) (hs : r'.settle g = .ok r'') :
    rest = [] ∧ r.opened = [] ∧ Adds g r (r.pending ++ ws.map .word) r'' := by
  induction ws generalizing r with
  | nil =>
    cases h
    obtain ⟨adds, opened, -⟩ := settle_adds hs
    rw [List.map_nil, List.append_nil]
    exact ⟨rfl, opened, adds⟩
  | cons w ws ih =>
    obtain ⟨next, hw, h⟩ := ok_of_bind h
    obtain ⟨r₀, settled, said, held⟩ := positional_adds hw
    obtain ⟨adds, opened, -⟩ := settle_adds settled
    obtain ⟨done, -, later⟩ := ih h
    rw [pending, held] at later
    exact ⟨done, opened, adds.trans (said.trans later)⟩

/-- What has been read up to a subcommand was written, an option that waits for its value in front
of it. -/
theorem read_spelled (known : r.Knows g) (h : read g false r ws = .ok (r', rest))
    (hs : r'.settle g = .ok r'') :
    ∃ before items, ws = before ++ rest ∧ Spelled g (r.opened ++ before) items ∧
      Adds g r (r.pending ++ items) r'' ∧ (rest ≠ [] → "--" ∉ before) ∧
      ∀ name ∈ rest.head?, name ∈ g.subcommands := by
  have at_end {s : Words} (hs : s.settle g = .ok r'') :
      Spelled g (s.opened ++ []) [] ∧ Adds g s (s.pending ++ []) r'' := by
    obtain ⟨adds, opened, -⟩ := settle_adds hs
    rw [opened, List.append_nil s.pending]
    exact ⟨.nil, adds⟩
  induction ws generalizing r with
  | nil =>
    cases h
    exact ⟨[], [], rfl, (at_end hs).1, (at_end hs).2, fun ne => (ne rfl).elim, nofun⟩
  | cons w ws ih =>
    rw [read] at h
    split at h
    · rename_i named
      cases h
      obtain ⟨spelled, adds⟩ := at_end hs
      refine ⟨[], [], rfl, spelled, adds, fun _ => List.not_mem_nil, fun name hn => ?_⟩
      cases hn
      exact List.contains_iff_mem.1 (Bool.and_eq_true_iff.1 named).2
    · split at h
      · rename_i ended
        obtain ⟨rfl, opened, adds⟩ := read_ended h hs
        refine ⟨w :: ws, _, (List.append_nil _).symm, ?_, adds, fun ne => (ne rfl).elim, nofun⟩
        rw [opened, ended]
        exact .ended ws
      · rename_i goes_on
        obtain ⟨next, hw, h⟩ := ok_of_bind h
        have step := step_word hw
        obtain ⟨before, items, rfl, spelled, adds, unended, named⟩ := ih (known.step step) h
        obtain ⟨all, spelled, adds⟩ := step.spelled known spelled adds
        refine ⟨w :: before, all, rfl, spelled, adds, fun ne hm => ?_, named⟩
        rcases List.mem_cons.1 hm with same | later
        · exact goes_on same.symm
        · exact unended ne later

theorem readAll_spelled (whole : g.subcommands = []) (h : readAll g ws = .ok r) :
    ∃ items, Spelled g ws items ∧ Adds g empty items r ∧
      (wordsOf items).length = g.positionals := by
  obtain ⟨⟨read, rest⟩, hr, h⟩ := ok_of_bind h
  obtain ⟨settled, hs, h⟩ := ok_of_bind h
  split at h
  · cases h
  · rename_i enough
    cases h
    obtain ⟨before, items, split, spelled, adds, -, named⟩ :=
      read_spelled (r := empty) nofun hr hs
    cases rest with
    | nil =>
      rw [List.append_nil] at split
      subst split
      have same : r.positionals = wordsOf items := adds.words
      refine ⟨items, spelled, adds, ?_⟩
      rw [← same]
      exact Nat.le_antisymm (adds.fits (Nat.zero_le _)) (Nat.not_lt.1 enough)
    | cons name rest =>
      have mem := named name rfl
      rw [whole] at mem
      cases mem

theorem Adds.gives (h : Adds g empty items r) (name : String) :
    Gives items name (r.option? name) := by
  intro v
  rw [h.option]
  exact or_iff_right nofun

end Words

variable {g : Grammar} {name : String} {ws : List String} {items : List Item} {i : Invocation}

theorem commandOf_written (adds : Words.Adds (grammarOf name) .empty items r)
    (count : (wordsOf items).length = (grammarOf name).positionals)
    (known : name ∈ commandNames) (other : name ≠ "help") :
    (commandOf name r).WrittenBy name items := by
  have words : r.positionals = wordsOf items := adds.words
  simp only [commandNames, List.mem_cons, List.not_mem_nil, or_false] at known
  rcases known with rfl | rfl | rfl | rfl | rfl | rfl
  · refine ⟨rfl, List.eq_nil_of_length_eq_zero count, ?_⟩
    cases given : r.option? "notify" with
    | none =>
      refine .inl ⟨fun v hv => ?_, rfl⟩
      rw [← adds.gives "notify", given] at hv
      cases hv
    | some v =>
      have hv := (adds.gives "notify" v).1 given
      obtain ⟨allowed, same, ok⟩ := adds.allowed "notify" v hv
      cases same
      obtain ⟨sink, named⟩ := Option.isSome_iff_exists.1 ok
      refine .inr ⟨v, hv, ?_⟩
      rw [Option.bind_some, named]
      rfl
  · obtain ⟨title, one⟩ := List.length_eq_one_iff.1 count
    refine ⟨rfl, ?_, adds.gives _, adds.gives _, adds.gives _, ?_⟩
    · rw [words, one]
      rfl
    · have set : "backlog" ∈ r.flags ↔ .flag "backlog" ∈ items :=
        (adds.flag "backlog").trans (or_iff_right List.not_mem_nil)
      simp only [List.contains_iff_mem, set]
  · exact ⟨rfl, List.eq_nil_of_length_eq_zero count, adds.gives _⟩
  · obtain ⟨id, one⟩ := List.length_eq_one_iff.1 count
    refine ⟨rfl, ?_⟩
    rw [words, one]
    rfl
  · obtain ⟨id, one⟩ := List.length_eq_one_iff.1 count
    refine ⟨rfl, ?_⟩
    rw [words, one]
    rfl
  · exact (other rfl).elim

theorem subcommands_grammarOf (name : String) : (grammarOf name).subcommands = [] := by
  unfold grammarOf
  split <;> rfl

/-- An invocation is what the words say. -/
theorem read_written (h : read ws = .ok i) : i.Written ws := by
  obtain ⟨⟨top, rest⟩, ht, h⟩ := ok_of_bind h
  dsimp only at h
  split at h
  · cases h
  · cases h
  · rename_i name behind other
    obtain ⟨r, hr, h⟩ := ok_of_bind h
    obtain ⟨settled, hs, h⟩ := ok_of_bind h
    cases h
    obtain ⟨before, outer, rfl, front, above, unended, named⟩ :=
      Words.read_spelled (r := .empty) nofun ht hs
    have known := named name rfl
    obtain ⟨items, spelled, adds, count⟩ := Words.readAll_spelled (subcommands_grammarOf name) hr
    refine ⟨before, name, behind, outer, items, r.option? "config", settled.option? "config", rfl,
      unended (List.cons_ne_nil _ _), front, ?_, spelled, ?_, adds.gives _, above.gives _, ?_⟩
    · have none : settled.positionals.length ≤ 0 := above.fits (Nat.le_refl 0)
      rw [above.words] at none
      exact List.eq_nil_of_length_eq_zero (Nat.le_zero.1 none)
    · exact commandOf_written adds count known other
    · cases r.option? "config" <;> rfl

/-- The words that may set flags. -/
def unended (ws : List String) : List String := ws.takeWhile (· ≠ "--")

theorem unended_cons (h : w ≠ "--") (ws : List String) : unended (w :: ws) = w :: unended ws :=
  List.takeWhile_cons_of_pos (decide_eq_true h)

theorem unended_append (h : "--" ∉ ws) (more : List String) :
    unended (ws ++ more) = ws ++ unended more :=
  List.takeWhile_append_of_pos fun _ hm => decide_eq_true fun same => h (same ▸ hm)

theorem dashed_ne_joined (plain : '=' ∉ name.toList) (n v : String) :
    dashed name ≠ dashed n ++ "=" ++ v := by
  intro same
  have mem : '=' ∈ (dashed name).toList := by simp [same]
  simp [toList_dashed, plain] at mem

theorem dashed_ne_end (ne : name ≠ "") : dashed name ≠ "--" :=
  mt (dashed_inj (b := "")).1 ne

/-- A flag is set where its word stands, in front of any word that is two dashes alone. -/
theorem Spelled.mem_flag_iff (h : Spelled g ws items) (plain : '=' ∉ name.toList)
    (named : ∀ n ∈ g.flags, n ≠ "") (options : ∀ n, g.HasOption n → n ≠ "" ∧ n ≠ name) :
    .flag name ∈ items ↔ dashed name ∈ unended ws := by
  induction h with
  | nil => simp [unended]
  | one written rest ih =>
    rw [List.mem_cons, ih]
    cases written with
    | @option n known v =>
      have goes_on : dashed "" ≠ dashed n ++ "=" ++ v := dashed_ne_joined (by decide) n v
      rw [unended_cons goes_on.symm, List.mem_cons, or_iff_right nofun,
        or_iff_right (dashed_ne_joined plain n v)]
    | flag known =>
      rw [unended_cons (dashed_ne_end (named _ known)), List.mem_cons, dashed_inj, Item.flag.injEq]
    | word bare =>
      rw [unended_cons (bare.ne_dashed ""), List.mem_cons, or_iff_right nofun,
        or_iff_right (bare.ne_dashed name).symm]
  | two known bare rest ih =>
    obtain ⟨nonempty, other⟩ := options _ known
    rw [List.mem_cons, ih, unended_cons (dashed_ne_end nonempty), unended_cons (bare.ne_dashed ""),
      List.mem_cons, List.mem_cons, or_iff_right nofun,
      or_iff_right (mt dashed_inj.1 (Ne.symm other)), or_iff_right (bare.ne_dashed name).symm]
  | ended ws => simp [unended]

theorem Spelled.known_of_flag (h : Spelled g ws items) (hm : .flag name ∈ items) :
    name ∈ g.flags := by
  induction h with
  | nil => cases hm
  | one written rest ih =>
    rcases List.mem_cons.1 hm with rfl | later
    · cases written with
      | flag known => exact known
    · exact ih later
  | two known plain rest ih =>
    rcases List.mem_cons.1 hm with same | later
    · cases same
    · exact ih later
  | ended ws => simp at hm

/-- A new task waits in the backlog if the flag for it is set. -/
theorem read_add (h : read ws = .ok ⟨path, .add d⟩) :
    d.status = if dashed "backlog" ∈ unended ws then some .backlog else none := by
  obtain ⟨before, name, behind, top, items, inner, outer, rfl, absent, front, -, spelled, written,
    -⟩ := read_written h
  obtain ⟨rfl, -, -, -, -, status⟩ := written
  have set : .flag "backlog" ∈ items ↔ dashed "backlog" ∈ unended (before ++ "add" :: behind) := by
    have unset : dashed "backlog" ∉ before := by
      have set : .flag "backlog" ∈ top ↔ dashed "backlog" ∈ unended before :=
        front.mem_flag_iff (by decide) nofun
          (by simp [Grammar.HasOption, topGrammar, settingsOption])
      have whole : unended before = before := by simpa [unended] using unended_append absent []
      intro hm
      rw [whole] at set
      cases front.known_of_flag (set.2 hm)
    rw [unended_append absent, unended_cons (by decide), List.mem_append, List.mem_cons,
      or_iff_right unset, or_iff_right (by decide)]
    exact spelled.mem_flag_iff (by decide) (by decide)
      (by simp [Grammar.HasOption, grammarOf, settingsOption])
  rw [status]
  simp only [set]

end Foreman.CommandLine

import Foreman.Proofs.Files.Replacement
import Foreman.Proofs.Files.Rooted

/-!
# Interrupted file programs

Any operation of a file program may fail, and the program may break off before each of them or
behind the last. An operation that fails may have done part of its work, a renaming none of it. So a
file that is being replaced holds its old content until it holds all of the new one.
-/

namespace Foreman

namespace FileTree

def content? (t : FileTree) (place : List String) : Option ByteArray :=
  match t.node? place with
  | some (.file content) => some content
  | _ => none

/-- Directories that were made where nothing stood. -/
inductive Grown (t : FileTree) : FileTree → Prop
  | refl : Grown t t
  | more (h : Grown t t') (missing : t'.node? place = none)
      (above : t'.node? place.dropLast = some .directory) : Grown t (t'.put place .directory)

theorem exists?_of_missing {t : FileTree} (leads : t.locate p = .ok place)
    (missing : t.node? place = none) : t.exists? p = .ok false := by
  simp [exists?, stat, leads, missing, bind, Except.bind, throw, throwThe, MonadExceptOf.throw]

/-- What may be left of a file that could not be written: nothing is changed, or any content is
there. -/
def Scribbled (t : FileTree) (p : String) (t' : FileTree) : Prop :=
  t' = t ∨ ∃ place content, t.locate p = .ok place ∧ t.Free place ∧
    t' = t.put place (.file content)

variable {t t' t'' : FileTree} {place other : List String} {p : String}

theorem free_of_missing (missing : t.node? place = none) : t.Free place := by
  rw [Free, missing]
  intro h
  cases h

theorem content?_put_file (free : t.Free place) (content : ByteArray) (other : List String) :
    (t.put place (.file content)).content? other =
      if other = place then some content else t.content? other := by
  rw [content?, node?_put free.ne_nil]
  by_cases same : other = place
  · rw [if_pos same, if_pos same]
  · rw [if_neg same, if_neg same]
    rfl

theorem content?_put_directory (missing : t.node? place = none) (other : List String) :
    (t.put place .directory).content? other = t.content? other := by
  rw [content?, content?, node?_put (free_of_missing missing).ne_nil]
  by_cases same : other = place
  · rw [if_pos same, same, missing]
  · rw [if_neg same]

theorem Grown.trans (h : Grown t t') (h' : Grown t' t'') : Grown t t'' := by
  induction h' with
  | refl => exact h
  | more _ missing above ih => exact ih.more missing above

theorem Grown.content? (h : Grown t t') (place : List String) :
    t'.content? place = t.content? place := by
  induction h with
  | refl => rfl
  | more _ missing _ ih => rw [content?_put_directory missing, ih]

theorem Grown.keeps (h : Grown t t') : Keeps t t' := by
  induction h with
  | refl => exact .refl t
  | more _ missing _ ih =>
    exact ih.trans ((free_of_missing missing).keeps_put _)

theorem Rooted.grown (rooted : t.Rooted) (h : Grown t t') : t'.Rooted := by
  induction h with
  | refl => exact rooted
  | more _ missing above ih =>
    have free := free_of_missing missing
    have keeps := free.keeps_put .directory
    refine ⟨?_, ?_⟩
    · rw [keeps.workdir]
      exact keeps.directories _ ih.start
    · intro other there
      rw [node?_put free.ne_nil] at there
      split at there
      · rename_i same
        rw [same]
        exact keeps.directories _ above
      · exact keeps.directories _ (ih.above other there)

theorem makeDirectory_grown (rooted : t.Rooted) (h : t.makeDirectory p = .ok t') : Grown t t' := by
  obtain ⟨place, leads, missing, rfl⟩ := makeDirectory_eq_ok.1 h
  exact Grown.refl.more missing (rooted.locate_above leads)

theorem makeDirectories_grown (rooted : t.Rooted) (h : t.makeDirectories p n = .ok t') :
    Grown t t' := by
  induction n generalizing t t' p with
  | zero => cases h
  | succ n ih =>
    rw [makeDirectories] at h
    split at h
    · cases h
      exact .refl
    · split at h
      · rename_i made
        cases h
        exact makeDirectory_grown rooted made
      · split at h
        · cases h
        · rename_i parent _
          cases above : t.makeDirectories parent n with
          | error e =>
            rw [above] at h
            cases h
          | ok t₁ =>
            have first := ih rooted above
            simp only [above, bind, Except.bind] at h
            split at h
            · rename_i made
              cases h
              exact first.trans (makeDirectory_grown (rooted.grown first) made)
            · split at h
              · cases h
                exact first
              · cases h
      · split at h
        · cases h
          exact .refl
        · cases h

end FileTree

namespace FileProgram

open FileTree (Grown Scribbled)

/-- The answer to a question, or an error. -/
def Tells (truth answer : Except FileError α) : Prop := answer = truth ∨ ∃ e, answer = .error e

/-- An operation is done as a whole, or it fails and leaves some part of it. -/
inductive Takes (effect : Except FileError FileTree) (Part : FileTree → Prop) :
    Except FileError Unit → FileTree → Prop
  | whole (done : effect = .ok t) : Takes effect Part (.ok ()) t
  | part (e : FileError) (left : Part t) : Takes effect Part (.error e) t

/-- How a program may end on a tree: with a result or, where it broke off, without one. -/
inductive Ends : FileProgram α → FileTree → Option α → FileTree → Prop
  | finished : Ends (.done a) t (some a) t
  | brokenOff : Ends p t none t
  | exists? (answer : Tells (t.exists? path) x) (rest : Ends (next x) t r t') :
      Ends (.exists? path next) t r t'
  | readText (answer : Tells (t.readText path) x) (rest : Ends (next x) t r t') :
      Ends (.readText path next) t r t'
  | makeDirectories (effect : Takes (t.makeDirectories path (depth path)) (Grown t) x t₁)
      (rest : Ends (next x) t₁ r t') : Ends (.makeDirectories path next) t r t'
  | write (effect : Takes (t.write path content.toUTF8) (Scribbled t path) x t₁)
      (rest : Ends (next x) t₁ r t') : Ends (.write path content next) t r t'
  | rename (effect : Takes (t.rename source target) (Eq t) x t₁)
      (rest : Ends (next x) t₁ r t') : Ends (.rename source target next) t r t'

/-- A program that asks about files and changes none. -/
inductive Asks : FileProgram α → Prop
  | done : Asks (.done a)
  | exists? (rest : ∀ x, Asks (next x)) : Asks (.exists? path next)
  | readText (rest : ∀ x, Asks (next x)) : Asks (.readText path next)

variable {p : FileProgram α} {f : α → FileProgram β} {t t' t₁ : FileTree}

theorem Takes.settle {Part : FileTree → Prop} (h : Part t) (effect : Except FileError FileTree) :
    Takes effect Part (FileProgram.settle t effect).1 (FileProgram.settle t effect).2 := by
  cases effect with
  | ok t' => exact .whole rfl
  | error e => exact .part e h

/-- A program may end as it does where nothing fails. -/
theorem ends_run (p : FileProgram α) (t : FileTree) : p.Ends t (some (p.run t).1) (p.run t).2 := by
  induction p generalizing t with
  | done a => exact .finished
  | exists? path next ih => exact .exists? (.inl rfl) (ih _ t)
  | readText path next ih => exact .readText (.inl rfl) (ih _ t)
  | makeDirectories path next ih => exact .makeDirectories (.settle .refl _) (ih _ _)
  | write path content next ih => exact .write (.settle (.inl rfl) _) (ih _ _)
  | rename source target next ih => exact .rename (.settle rfl _) (ih _ _)

theorem Asks.eq_of_ends (h : p.Asks) (ends : p.Ends t r t') : t' = t := by
  induction h generalizing t with
  | done => cases ends <;> rfl
  | exists? _ ih =>
    cases ends with
    | brokenOff => rfl
    | exists? answer rest => exact ih _ rest
  | readText _ ih =>
    cases ends with
    | brokenOff => rfl
    | readText answer rest => exact ih _ rest

theorem Ends.bind (h : p.Ends t (some a) t₁) (rest : (f a).Ends t₁ r t') :
    (p >>= f).Ends t r t' := by
  change (p.bind f).Ends t r t'
  induction p generalizing t with
  | done a =>
    cases h
    exact rest
  | exists? path next ih =>
    cases h with
    | exists? answer h => exact .exists? answer (ih _ h)
  | readText path next ih =>
    cases h with
    | readText answer h => exact .readText answer (ih _ h)
  | makeDirectories path next ih =>
    cases h with
    | makeDirectories effect h => exact .makeDirectories effect (ih _ h)
  | write path content next ih =>
    cases h with
    | write effect h => exact .write effect (ih _ h)
  | rename source target next ih =>
    cases h with
    | rename effect h => exact .rename effect (ih _ h)

theorem Ends.of_bind (h : (p >>= f).Ends t r t') :
    p.Ends t none t' ∧ r = none ∨ ∃ a t₁, p.Ends t (some a) t₁ ∧ (f a).Ends t₁ r t' := by
  change (p.bind f).Ends t r t' at h
  -- Either `p` breaks off at its next operation, or the answer to that leads into the rest of `p`.
  induction p generalizing t with
  | done a => exact .inr ⟨a, t, .finished, h⟩
  | exists? path next ih =>
    cases h with
    | brokenOff => exact .inl ⟨.brokenOff, rfl⟩
    | exists? answer rest =>
      rcases ih _ rest with ⟨h, none⟩ | ⟨a, t₁, h, h'⟩
      · exact .inl ⟨.exists? answer h, none⟩
      · exact .inr ⟨a, t₁, .exists? answer h, h'⟩
  | readText path next ih =>
    cases h with
    | brokenOff => exact .inl ⟨.brokenOff, rfl⟩
    | readText answer rest =>
      rcases ih _ rest with ⟨h, none⟩ | ⟨a, t₁, h, h'⟩
      · exact .inl ⟨.readText answer h, none⟩
      · exact .inr ⟨a, t₁, .readText answer h, h'⟩
  | makeDirectories path next ih =>
    cases h with
    | brokenOff => exact .inl ⟨.brokenOff, rfl⟩
    | makeDirectories effect rest =>
      rcases ih _ rest with ⟨h, none⟩ | ⟨a, t₁, h, h'⟩
      · exact .inl ⟨.makeDirectories effect h, none⟩
      · exact .inr ⟨a, t₁, .makeDirectories effect h, h'⟩
  | write path content next ih =>
    cases h with
    | brokenOff => exact .inl ⟨.brokenOff, rfl⟩
    | write effect rest =>
      rcases ih _ rest with ⟨h, none⟩ | ⟨a, t₁, h, h'⟩
      · exact .inl ⟨.write effect h, none⟩
      · exact .inr ⟨a, t₁, .write effect h, h'⟩
  | rename source target next ih =>
    cases h with
    | brokenOff => exact .inl ⟨.brokenOff, rfl⟩
    | rename effect rest =>
      rcases ih _ rest with ⟨h, none⟩ | ⟨a, t₁, h, h'⟩
      · exact .inl ⟨.rename effect h, none⟩
      · exact .inr ⟨a, t₁, .rename effect h, h'⟩

/-- A program that has come to its end came to that of its first part. -/
theorem Ends.of_bind_some (h : (p >>= f).Ends t (some b) t') :
    ∃ a t₁, p.Ends t (some a) t₁ ∧ (f a).Ends t₁ (some b) t' := by
  rcases h.of_bind with ⟨-, impossible⟩ | parts
  · cases impossible
  · exact parts

end FileProgram

/-- A path leads where it led, and what it leads to holds what this has held. -/
structure FileTree.Spares (t t' : FileTree) (p : String) : Prop where
  leads : ∀ place, t.locate p = .ok place → t'.locate p = .ok place
  content : ∀ place, t'.locate p = .ok place → t'.content? place = t.content? place

theorem FileTree.Spares.refl (t : FileTree) (p : String) : t.Spares t p :=
  ⟨fun _ h => h, fun _ _ => rfl⟩

theorem FileTree.Grown.spares {t t' : FileTree} (h : t.Grown t') (p : String) :
    t.Spares t' p where
  leads _ led := h.keeps.locate led
  content place _ := h.content? place

theorem FileTree.Grown.spares_trans {t t' t'' : FileTree} (h : t.Grown t') (h' : t'.Spares t'' p) :
    t.Spares t'' p where
  leads place led := h'.leads place (h.keeps.locate led)
  content place led := (h'.content place led).trans (h.content? place)

namespace Replaceable

open FileTree (Grown Free Keeps)
open FileProgram (Ends Takes)

/-- What a replacement may leave, with its answer: the old content, or all of the new one and no
temporary file. -/
inductive Leaves (f : Replaceable) (content : String) (t : FileTree) :
    Option (Except Fault Unit) → FileTree → Prop
  | old (spares : t.Spares t' f.path) (unfinished : r ≠ some (.ok ())) : Leaves f content t r t'
  | new (read : t'.readText f.path = .ok content)
      (gone : t'.exists? f.temporaryPath = .ok false) (unfailed : ∀ e, r ≠ some (.error e)) :
      Leaves f content t r t'

variable {f : Replaceable} {t t' t₁ : FileTree} {content : String}

/-- Whatever is written beside a file, the file stays as it is. -/
theorem spares_put (rooted : t.Rooted) (double : Path.IsDouble f.extension)
    (beside : t.locate f.temporaryPath = .ok place) (free : t.Free place) (bytes : ByteArray) :
    t.Spares (t.put place (.file bytes)) f.path where
  leads other h := (free.keeps_put _).locate h
  content other h := by
    rw [FileTree.content?_put_file free]
    split
    · rename_i same
      subst same
      have here := (free.put_keeps bytes).locate h
      exact (rooted.place_ne_of_withExtension double here free beside rfl).elim
    · rfl

theorem spares_of_scribbled (rooted : t.Rooted) (double : Path.IsDouble f.extension)
    (left : t.Scribbled f.temporaryPath t') : t.Spares t' f.path := by
  rcases left with rfl | ⟨place, bytes, beside, free, rfl⟩
  · exact .refl _ f.path
  · exact spares_put rooted double beside free bytes

theorem read_of_rename (rooted : t.Rooted) (double : Path.IsDouble f.extension)
    (beside : t.locate f.temporaryPath = .ok place) (free : t.Free place)
    (done : (t.put place (.file content.toUTF8)).rename f.temporaryPath f.path = .ok t') :
    t'.readText f.path = .ok content ∧ t'.exists? f.temporaryPath = .ok false := by
  have keeps := free.keeps_put (.file content.toUTF8)
  have back := free.put_keeps content.toUTF8
  have file : (t.put place (.file content.toUTF8)).node? place = some (.file content.toUTF8) := by
    rw [FileTree.node?_put free.ne_nil, if_pos rfl]
  obtain ⟨target, leads, freeTarget, rfl⟩ :=
    (FileTree.rename_eq_ok (keeps.locate beside) file).1 done
  have ne : place ≠ target :=
    rooted.place_ne_of_withExtension double (back.locate leads) ((free.put _).1 freeTarget) beside
  generalize t.put place (.file content.toUTF8) = u at *
  have freeOrigin : u.Free place := by
    rw [FileTree.Free, file]
    intro h
    cases h
  have freeTarget' := freeOrigin.remove.2 freeTarget
  have keeps' := freeOrigin.keeps_remove.trans (freeTarget'.keeps_put (.file content.toUTF8))
  constructor
  · apply FileTree.readText_eq_ok.2
    apply FileTree.stat_eq_ok.2
    refine ⟨target, keeps'.locate leads, ?_⟩
    rw [FileTree.node?_put freeTarget.ne_nil, if_pos rfl]
  · have missing : ((u.remove place).put target (.file content.toUTF8)).node? place = none := by
      rw [FileTree.node?_put freeTarget.ne_nil, if_neg ne, FileTree.node?_remove freeOrigin.ne_nil,
        if_pos rfl]
    exact FileTree.exists?_of_missing (keeps'.locate (keeps.locate beside)) missing

theorem leaves_of_swap (rooted : t.Rooted) (double : Path.IsDouble f.extension)
    (ends : (f.swap content).Ends t r t') : f.Leaves content t r t' := by
  cases ends with
  | brokenOff => exact .old (.refl t f.path) nofun
  | write effect rest =>
    cases effect with
    | part e left =>
      have spares := spares_of_scribbled rooted double left
      cases rest with
      | finished | brokenOff => exact .old spares nofun
    | whole done =>
      obtain ⟨origin, beside, free, rfl⟩ := FileTree.write_eq_ok.1 done
      have spares := spares_put rooted double beside free content.toUTF8
      cases rest with
      | brokenOff => exact .old spares nofun
      | rename effect rest =>
        cases effect with
        | part e left =>
          subst left
          cases rest with
          | finished | brokenOff => exact .old spares nofun
        | whole done =>
          have new := read_of_rename rooted double beside free done
          cases rest with
          | finished | brokenOff => exact .new new.1 new.2 nofun

theorem leaves_of_replace (rooted : t.Rooted) (double : Path.IsDouble f.extension)
    (ends : (f.replace content).Ends t r t') : f.Leaves content t r t' := by
  unfold replace at ends
  split at ends
  · cases ends with
    | finished | brokenOff => exact .old (.refl t f.path) nofun
  · exact leaves_of_swap rooted double ends
  · cases ends with
    | brokenOff => exact .old (.refl t f.path) nofun
    | makeDirectories effect rest =>
      cases effect with
      | part e grown =>
        cases rest with
        | finished | brokenOff => exact .old (grown.spares f.path) nofun
      | whole done =>
        have grown := FileTree.makeDirectories_grown rooted done
        cases leaves_of_swap (rooted.grown grown) double rest with
        | old spares unfinished => exact .old (grown.spares_trans spares) unfinished
        | new read gone unfailed => exact .new read gone unfailed

end Replaceable

end Foreman

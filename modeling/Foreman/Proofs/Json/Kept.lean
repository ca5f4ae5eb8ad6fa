import Foreman.Proofs.Json.Number
import Foreman.Proofs.Json.Pretty
import Foreman.Proofs.Json.Record

/-!
# Records that are read back

What is written for a value is *kept* if reading it gives that value again. A record is kept if its
fields are, whether they are left out or written as `null` where there is nothing.
-/

namespace Foreman.Json

/-- What is written for a value is a document, more than `null`, and reads as that value. -/
structure Kept (write : α → Json) (read : Json → Option α) (a : α) : Prop where
  sound : Sound (fun _ => True) (write a)
  present : write a ≠ .null
  reads : read (write a) = some a

variable {write : α → Json} {read : Json → Option α} {fs : Fields}

theorem Kept.orNull? (h : Kept write read a) : orNull? read (write a) = some (some a) := by
  have reads := h.reads
  have present := h.present
  generalize write a = j at reads present
  cases j with
  | null => exact (present rfl).elim
  | _ => exact congrArg (Option.map some) reads

theorem kept_ofString (s : String) : Kept .ofString asText? s where
  sound := .string trivial
  present := nofun
  reads := rfl

theorem kept_ofNat_uInt32 (n : UInt32) : Kept (fun n => .ofNat n.toNat) asUInt32? n where
  sound := .number (Number.wellFormed_ofNat _)
  present := nofun
  reads := Number.toUInt32?_ofNat n

theorem kept_ofNat_uInt64 (n : UInt64) : Kept (fun n => .ofNat n.toNat) asUInt64? n where
  sound := .number (Number.wellFormed_ofNat _)
  present := nofun
  reads := Number.toUInt64?_ofNat n

theorem kept_ofBinary64 (h : x.Restored) : Kept .ofBinary64 asBinary64? x := by
  obtain ⟨n, hn, wellFormed, reads⟩ := h.exists
  have written : Json.ofBinary64 x = .number n := by
    rw [Json.ofBinary64, hn]
    rfl
  constructor
  · rw [written]
    exact .number wellFormed
  · rw [written]
    nofun
  · rw [written]
    exact reads

theorem sound_ofOption {a : Option α} (h : ∀ x ∈ a, Kept write read x) :
    Sound (fun _ => True) (ofOption write a) := by
  cases a with
  | none => exact .null
  | some x => exact (h x rfl).sound

/-- A record whose members are among the fields, in their order. -/
theorem fields?_of_sublist {names : List String} (nodup : names.Nodup)
    (h : (ms.map Prod.fst).Sublist names) : fields? names (record ms) = some ⟨false, ms⟩ := by
  rw [fields?_record names (nodup.sublist h), List.filter_eq_self.2]
  intro m hm
  exact List.contains_iff_mem.2 (h.subset (List.mem_map_of_mem hm))

namespace Fields

theorem required?_of_get? (h : Kept write read a) (found : fs.get? name = some (write a)) :
    fs.required? name read = some a := by
  rw [required?, found]
  exact h.reads

theorem optional?_of_get? {a : Option α} (h : ∀ x ∈ a, Kept write read x)
    (found : fs.get? name = a.map write) : fs.optional? name read = some a := by
  rw [optional?, withDefault?, found]
  cases a with
  | none => rfl
  | some x => exact (h x rfl).orNull?

theorem nullable?_of_get? {a : Option α} (h : ∀ x ∈ a, Kept write read x)
    (placed : fs.placed = false) (found : fs.get? name = some (ofOption write a)) :
    fs.nullable? name read = some a := by
  rw [nullable?, placed, if_neg nofun, optional?, withDefault?, found]
  cases a with
  | none => rfl
  | some x => exact (h x rfl).orNull?

end Fields

theorem asList?_map {as : List α} (h : ∀ a ∈ as, Kept write read a) :
    asList? read (.array (as.map write)) = some as := by
  rw [asList?]
  induction as with
  | nil => rfl
  | cons a as ih =>
    have first := (h a List.mem_cons_self).reads
    have later := ih fun x hx => h x (List.mem_cons_of_mem a hx)
    simp [List.mapM_cons, first, later]

end Foreman.Json

import Foreman.Proofs.Json.Reading
import Foreman.Proofs.Text.Digits

namespace Foreman

namespace Decimal

variable {e : Int}

theorem onGrid?_digits (h : onGrid? w e = some d) : 0 < d.digits := by
  unfold onGrid? at h
  simp only at h
  split at h
  · rename_i low _
    simp only [Bool.and_eq_true, bne_iff_ne] at low
    cases h
    unfold nearer
    simp only
    split
    · exact Nat.pos_of_ne_zero low.1
    · exact Nat.succ_pos _
    · split
      · exact Nat.pos_of_ne_zero low.1
      · exact Nat.succ_pos _
  · rename_i low _
    simp only [Bool.and_eq_true, bne_iff_ne] at low
    cases h
    exact Nat.pos_of_ne_zero low.1
  · cases h
    exact Nat.succ_pos _
  · cases h

theorem search_digits (h : search w e n = some d) : 0 < d.digits := by
  induction n generalizing e with
  | zero => cases h
  | succ n ih =>
    rw [search] at h
    split at h
    · rename_i found
      cases h
      exact onGrid?_digits found
    · exact ih h

theorem strip_digits (pos : 0 < d.digits) (n : Nat) : 0 < (strip d n).digits := by
  induction n generalizing d with
  | zero => exact pos
  | succ n ih =>
    rw [strip]
    split
    · have shorter : 0 < d.digits / 10 := by omega
      exact ih shorter
    · exact pos

/-- No number other than zero is written in zeros. -/
theorem shortest?_digits (h : shortest? w = some d) : 0 < d.digits := by
  unfold shortest? at h
  obtain ⟨found, hs, rfl⟩ := Option.map_eq_some_iff.1 h
  exact strip_digits (search_digits hs) 20

end Decimal

namespace Json.Number

theorem wellFormed_ofNat (n : Nat) : (ofNat n).WellFormed where
  whole_ne_nil := Text.ofNat_ne_nil n
  whole := fun _ => Text.isDigit_of_mem_ofNat
  leading := fun _ => Text.leading_ofNat n
  fraction := nofun
  exponent := nofun

theorem toNat?_ofNat (n : Nat) : (ofNat n).toNat? = some n :=
  congrArg some (Text.digitsValue_ofNat n)

@[simp] theorem toUInt64?_ofNat (n : UInt64) : (ofNat n.toNat).toUInt64? = some n := by
  simp only [toUInt64?, toNat?_ofNat, Option.bind_some, if_pos n.toNat_lt_size, UInt64.ofNat_toNat]

@[simp] theorem toUInt32?_ofNat (n : UInt32) : (ofNat n.toNat).toUInt32? = some n := by
  simp only [toUInt32?, toNat?_ofNat, Option.bind_some, if_pos n.toNat_lt_size, UInt32.ofNat_toNat]

/-- The digits of a number other than zero. -/
structure Significant (ds : List Char) : Prop where
  ne_nil : ds ≠ []
  digits : ∀ c ∈ ds, Text.isDigit c = true
  leading : ∀ r, ds ≠ '0' :: r

theorem significant_ofNat (h : 0 < n) : Significant (Text.ofNat n) where
  ne_nil := Text.ofNat_ne_nil n
  digits := fun _ => Text.isDigit_of_mem_ofNat
  leading := Text.head_ofNat_ne_zero h

theorem Significant.append (h : Significant ds) (more : ∀ c ∈ r, Text.isDigit c = true) :
    Significant (ds ++ r) where
  ne_nil := List.append_ne_nil_of_left_ne_nil h.ne_nil r
  digits := fun c hc => (List.mem_append.1 hc).elim (h.digits c) (more c)
  leading := by
    intro rest same
    obtain ⟨d, ds', rfl⟩ := List.exists_cons_of_ne_nil h.ne_nil
    injection same with same
    exact h.leading ds' (by rw [same])

theorem Significant.take (h : Significant ds) (pos : 0 < k) : Significant (ds.take k) where
  ne_nil := by simp [h.ne_nil, Nat.ne_of_gt pos]
  digits := fun c hc => h.digits c (List.mem_of_mem_take hc)
  leading := by
    intro rest same
    obtain ⟨d, ds', rfl⟩ := List.exists_cons_of_ne_nil h.ne_nil
    obtain ⟨k, rfl⟩ := Nat.exists_eq_succ_of_ne_zero (Nat.ne_of_gt pos)
    injection same with same
    exact h.leading ds' (by rw [same])

theorem isDigit_of_mem_zero (h : c ∈ ['0']) : Text.isDigit c = true := by
  rw [List.mem_singleton.1 h]
  rfl

theorem isDigit_of_mem_zeros (h : c ∈ List.replicate k '0') : Text.isDigit c = true := by
  rw [List.eq_of_mem_replicate h]
  rfl

variable {sign : Bool} {behind : List Char} {power : Option (Bool × List Char)}

theorem Significant.wellFormed (h : Significant ds)
    (fraction : ∀ c ∈ behind, Text.isDigit c = true)
    (exponent : ∀ sign ds, power = some (sign, ds) → ds ≠ [] ∧ ∀ c ∈ ds, Text.isDigit c = true) :
    WellFormed ⟨sign, ds, behind, power⟩ where
  whole_ne_nil := h.ne_nil
  whole := h.digits
  leading := fun ds same => (h.leading ds same).elim
  fraction
  exponent

/-- A number whose digits before the point are a zero. -/
theorem wellFormed_zero (fraction : ∀ c ∈ behind, Text.isDigit c = true) :
    WellFormed ⟨sign, ['0'], behind, none⟩ where
  whole_ne_nil := nofun
  whole := fun _ => isDigit_of_mem_zero
  leading := fun _ same => by
    injection same with _ same
    exact same.symm
  fraction
  exponent := nofun

theorem wellFormed_layout (h : Significant ds) (negative : Bool) (exponent : Int) :
    (layout negative ds exponent).WellFormed := by
  unfold layout
  simp only
  split
  · exact (h.append fun _ => isDigit_of_mem_zeros).wellFormed (fun _ => isDigit_of_mem_zero) nofun
  · split
    · rename_i inside
      exact (h.take (by omega)).wellFormed (fun c hc => h.digits c (List.mem_of_mem_drop hc)) nofun
    · split
      · exact wellFormed_zero fun c hc =>
          (List.mem_append.1 hc).elim isDigit_of_mem_zeros (h.digits c)
      · refine (h.take Nat.one_pos).wellFormed (fun c hc => h.digits c (List.mem_of_mem_drop hc)) ?_
        rintro sign ds ⟨⟩
        exact ⟨Text.ofNat_ne_nil _, fun _ => Text.isDigit_of_mem_ofNat⟩

theorem wellFormed_of_ofBinary64? (h : ofBinary64? x = some n) : n.WellFormed := by
  unfold ofBinary64? at h
  split at h
  · cases h
  · split at h
    · cases h
      exact wellFormed_zero fun _ => isDigit_of_mem_zero
    · obtain ⟨d, hd, rfl⟩ := Option.map_eq_some_iff.1 h
      exact wellFormed_layout (significant_ofNat (Decimal.shortest?_digits hd)) _ _

end Json.Number

/-- The amount is finite, and the number that is written for it reads as the same amount. -/
def Binary64.Restored (x : Binary64) : Prop :=
  (Json.Number.ofBinary64? x).bind Json.Number.toBinary64? = some x

instance (x : Binary64) : Decidable x.Restored := inferInstanceAs (Decidable (_ = _))

theorem Binary64.Restored.exists (h : x.Restored) :
    ∃ n : Json.Number, Json.Number.ofBinary64? x = some n ∧ n.WellFormed ∧
      n.toBinary64? = some x := by
  obtain ⟨n, hn, read⟩ := Option.bind_eq_some_iff.1 h
  exact ⟨n, hn, Json.Number.wellFormed_of_ofBinary64? hn, read⟩

end Foreman

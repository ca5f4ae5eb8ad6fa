import Mathlib.Data.List.Forall2
import Foreman.Text.Letter

namespace Foreman.Text

variable {c d : Char} {s t : List Char}

/-- One of the letters A to Z, and the same letter from a to z. -/
def Capital (c d : Char) : Prop := isUpperAscii c = true ∧ d.toNat = c.toNat + 32

/-- The same text, but that any of the letters A to Z may be in the other case. -/
def SameButCase : List Char → List Char → Prop :=
  List.Forall₂ fun c d => c = d ∨ Capital c d ∨ Capital d c

theorem isUpperAscii_iff : isUpperAscii c = true ↔ 65 ≤ c.toNat ∧ c.toNat ≤ 90 := by
  simp only [isUpperAscii, Bool.and_eq_true, decide_eq_true_eq, Char.le_def,
    UInt32.le_iff_toNat_le]
  rfl

theorem toNat_lowerChar (c : Char) :
    (lowerChar c).toNat = if isUpperAscii c then c.toNat + 32 else c.toNat := by
  rw [lowerChar]
  split
  · rename_i upper
    have bounds := isUpperAscii_iff.1 upper
    have valid : (c.toNat + 32).isValidChar := .inl (by omega)
    rw [Char.ofNat, dif_pos valid]
    rfl
  · rfl

theorem lowerChar_eq_iff : lowerChar c = lowerChar d ↔ c = d ∨ Capital c d ∨ Capital d c := by
  rw [← Char.toNat_inj, ← Char.toNat_inj, toNat_lowerChar, toNat_lowerChar, Capital, Capital]
  simp only [isUpperAscii_iff]
  split <;> split <;> omega

theorem lower_eq_iff : lower s = lower t ↔ SameButCase s t := by
  rw [← List.forall₂_eq_eq_eq, lower, lower, List.forall₂_map_left_iff, List.forall₂_map_right_iff]
  simp only [lowerChar_eq_iff]
  rfl

/-- What stands in the text in lower case stands in the text in some case. -/
theorem infix_lower_iff : t <:+: lower s ↔ ∃ part, part <:+: s ∧ lower part = t := by
  constructor
  · rintro ⟨l, r, h⟩
    obtain ⟨front, back, rfl, hf, -⟩ := List.map_eq_append_iff.1 h.symm
    obtain ⟨before, part, rfl, -, same⟩ := List.map_eq_append_iff.1 hf
    exact ⟨part, ⟨before, back, rfl⟩, same⟩
  · rintro ⟨part, stands, rfl⟩
    exact stands.map lowerChar

end Foreman.Text

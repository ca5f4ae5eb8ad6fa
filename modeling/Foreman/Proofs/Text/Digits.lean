import Foreman.Decimal.Binary64
import Foreman.Text.Blank
import Foreman.Text.Letter

namespace Foreman.Text

theorem isDigit_of_mem_ofNat (h : c ∈ ofNat n) : isDigit c = true :=
  Nat.isDigit_of_mem_toDigits (by decide) (by decide) h

theorem ofNat_ne_nil (n : Nat) : ofNat n ≠ [] := Nat.toDigits_ne_nil

theorem digitsValue_eq (ds : List Char) : digitsValue ds = Nat.ofDigitChars 10 ds 0 := by
  rw [Nat.ofDigitChars_eq_foldl, digitsValue]
  simp only [Nat.mul_comm]

@[simp] theorem digitsValue_ofNat (n : Nat) : digitsValue (ofNat n) = n := by
  rw [digitsValue_eq]
  exact Nat.ofDigitChars_ten_toDigits

theorem digitsValue_zeros_append (k : Nat) (ds : List Char) :
    digitsValue (List.replicate k '0' ++ ds) = digitsValue ds := by
  rw [digitsValue_eq, digitsValue_eq, Nat.ofDigitChars_append, Nat.ofDigitChars_replicate_zero,
    Nat.mul_zero]

theorem head_ofNat_ne_zero (h : 0 < n) : ∀ r, ofNat n ≠ '0' :: r := by
  induction n using Nat.strongRecOn with
  | ind n ih =>
    intro r
    rw [ofNat, Nat.toDigits_eq_if (by decide)]
    split
    · rename_i small
      have digits : ∀ n < 10, 0 < n → Nat.digitChar n ≠ '0' := by decide
      intro same
      injection same with same
      exact digits n small h same
    · -- The first digit of the number is that of the number without its last digit.
      have front := ih (n / 10) (by omega) (by omega)
      obtain ⟨d, ds, hd⟩ := List.exists_cons_of_ne_nil (ofNat_ne_nil (n / 10))
      rw [hd] at front
      rw [ofNat] at hd
      rw [hd]
      intro same
      injection same with same
      exact front ds (by rw [same])

/-- A row of digits that begins with a zero is that zero. -/
theorem leading_ofNat (n : Nat) (h : ofNat n = '0' :: r) : r = [] := by
  cases n with
  | zero =>
    injection h with _ h
    exact h.symm
  | succ n => exact (head_ofNat_ne_zero (Nat.succ_pos n) r h).elim

theorem isDigit_of_mem_padded (h : c ∈ padded width n) : isDigit c = true := by
  rcases List.mem_append.1 h with zero | digit
  · rw [List.eq_of_mem_replicate zero]
    rfl
  · exact isDigit_of_mem_ofNat digit

@[simp] theorem digitsValue_padded (width n : Nat) : digitsValue (padded width n) = n := by
  rw [padded, digitsValue_zeros_append, digitsValue_ofNat]

/-- A number below a power of ten has as many digits as the power has zeros, or fewer. -/
theorem length_padded (pos : 0 < width) (h : n < tenTo width) :
    (padded width n).length = width := by
  have short : (ofNat n).length ≤ width := (Nat.length_toDigits_le_iff (by decide) pos).2 h
  simp only [padded, List.length_append, List.length_replicate]
  omega

theorem padded_ne_nil (width n : Nat) : padded width n ≠ [] :=
  List.append_ne_nil_of_right_ne_nil _ (ofNat_ne_nil n)

theorem isBlank_of_isDigit (h : isDigit c = true) : isBlank c = false := by
  simp only [isDigit, Bool.and_eq_true, decide_eq_true_eq, Char.le_def, UInt32.le_iff_toNat_le] at h
  have low : ('0' : Char).val.toNat = 48 := rfl
  have high : ('9' : Char).val.toNat = 57 := rfl
  simp only [isBlank, Char.toNat, Bool.or_eq_false_iff, Bool.and_eq_false_iff, beq_eq_false_iff_ne,
    decide_eq_false_iff_not]
  omega

def hexDigits : List Char := "0123456789abcdefABCDEF".toList

theorem mem_hexDigits (h : isHexDigit c = true) : c ∈ hexDigits := by
  have small : c.toNat ≤ 102 := by
    simp only [isHexDigit, isDigit, Bool.or_eq_true, Bool.and_eq_true, decide_eq_true_eq,
      Char.le_def, UInt32.le_iff_toNat_le] at h
    have digits : ('9' : Char).val.toNat = 57 := rfl
    have lower : ('f' : Char).val.toNat = 102 := rfl
    have upper : ('F' : Char).val.toNat = 70 := rfl
    simp only [Char.toNat]
    omega
  have table : ∀ n ≤ 102, isHexDigit (Char.ofNat n) = true → Char.ofNat n ∈ hexDigits := by
    decide +kernel
  have row := table c.toNat small
  rw [Char.ofNat_toNat] at row
  exact row h

end Foreman.Text

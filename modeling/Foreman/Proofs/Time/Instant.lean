import Foreman.Proofs.Text.Blank
import Foreman.Proofs.Text.Digits
import Foreman.Time.Instant

namespace Foreman.Instant

variable {rest : List Char}

theorem isDigit_head?_padded (hc : c ∈ (Text.padded width n ++ rest).head?) :
    Text.isDigit c = true := by
  obtain ⟨d, ds, digits⟩ := List.exists_cons_of_ne_nil (Text.padded_ne_nil width n)
  rw [digits] at hc
  cases hc
  have first : c ∈ Text.padded width n := digits ▸ List.mem_cons_self
  exact Text.isDigit_of_mem_padded first

theorem takeWhile_padded (width n : Nat) (rest : List Char) :
    (Text.padded width n ++ rest).takeWhile Text.isDigit =
      Text.padded width n ++ rest.takeWhile Text.isDigit :=
  List.takeWhile_append_of_pos fun _ => Text.isDigit_of_mem_padded

theorem trimStart_padded (width n : Nat) (rest : List Char) :
    Text.trimStart (Text.padded width n ++ rest) = Text.padded width n ++ rest := by
  apply Text.trimStart_eq_self
  exact fun c hc => Text.isBlank_of_isDigit (isDigit_head?_padded hc)

theorem number?_padded (pos : 0 < width) (h : n < tenTo width) (rest : List Char) :
    number? width (Text.padded width n ++ rest) = some (n, rest) := by
  have front : (Text.padded width n ++ rest).take width = Text.padded width n :=
    List.take_left' (Text.length_padded pos h)
  have digits : (Text.padded width n).takeWhile Text.isDigit = Text.padded width n := by
    simpa using takeWhile_padded width n []
  simp [number?, trimStart_padded, front, digits, Text.padded_ne_nil]

theorem takeWhile_stop (stop : ∀ c ∈ rest.head?, Text.isDigit c = false) :
    rest.takeWhile Text.isDigit = [] := by
  cases rest with
  | nil => rfl
  | cons c r => simp [stop c rfl]

theorem signed?_padded (stop : ∀ c ∈ rest.head?, Text.isDigit c = false) (width n : Nat) :
    year?.signed? (Text.padded width n ++ rest) = some (n, rest) := by
  simp [year?.signed?, takeWhile_padded, takeWhile_stop stop, Text.padded_ne_nil]

theorem year?_yearText (stop : ∀ c ∈ rest.head?, Text.isDigit c = false) (year : Int) :
    year? (yearText year ++ rest) = some (year, rest) := by
  unfold yearText
  split
  · rename_i four
    have small : year.toNat < tenTo 4 := by
      show year.toNat < 10000
      omega
    have head : ∀ c ∈ (Text.padded 4 year.toNat ++ rest).head?, Text.isDigit c = true :=
      fun _ => isDigit_head?_padded
    have read := number?_padded (by decide) small rest
    have same : (year.toNat : Int) = year := Int.toNat_of_nonneg four.1
    rw [year?, trimStart_padded]
    generalize Text.padded 4 year.toNat ++ rest = s at head read
    split
    · cases head _ rfl
    · cases head _ rfl
    · simp [read, same]
  · have read := signed?_padded stop 4 year.natAbs
    split
    · rename_i negative
      have same : -(year.natAbs : Int) = year := by omega
      rw [List.cons_append, year?]
      show (year?.signed? (Text.padded 4 year.natAbs ++ rest)).map _ = _
      rw [read]
      exact congrArg (fun y => some (y, rest)) same
    · rename_i positive
      have same : (year.natAbs : Int) = year := by omega
      rw [List.cons_append, year?]
      show (year?.signed? (Text.padded 4 year.natAbs ++ rest)).map _ = _
      rw [read]
      exact congrArg (fun y => some (y, rest)) same

theorem fraction?_point (pos : 0 < width) (nine : width ≤ 9) (h : n < tenTo width)
    (stop : ∀ c ∈ rest.head?, Text.isDigit c = false) :
    fraction? ('.' :: Text.padded width n ++ rest) = some (n * tenTo (9 - width), rest) := by
  have length := Text.length_padded pos h
  have kept : (Text.padded width n).take 9 = Text.padded width n :=
    List.take_of_length_le (by omega)
  simp [fraction?, takeWhile_padded, takeWhile_stop stop, kept, length, Text.padded_ne_nil]

theorem fraction?_fractionText {nanos : Nat} (h : nanos < 1000000000)
    (stop : ∀ c ∈ rest.head?, Text.isDigit c = false ∧ c ≠ '.') :
    fraction? (fractionText nanos ++ rest) = some (nanos, rest) := by
  have digits : ∀ c ∈ rest.head?, Text.isDigit c = false := fun c hc => (stop c hc).1
  unfold fractionText
  split
  · rename_i zero
    subst zero
    cases rest with
    | nil => rfl
    | cons c r => simp [fraction?, (stop c rfl).2]
  · -- The digits that are not written are zeros.
    split
    · rename_i millis
      have small : nanos / 1000000 < tenTo 3 := by
        show nanos / 1000000 < 1000
        omega
      rw [fraction?_point (by decide) (by decide) small digits]
      have whole : nanos / 1000000 * 1000000 = nanos := by omega
      exact congrArg (fun n => some (n, rest)) whole
    · split
      · rename_i micros
        have small : nanos / 1000 < tenTo 6 := by
          show nanos / 1000 < 1000000
          omega
        rw [fraction?_point (by decide) (by decide) small digits]
        have whole : nanos / 1000 * 1000 = nanos := by omega
        exact congrArg (fun n => some (n, rest)) whole
      · rw [fraction?_point (by decide) (by decide) h digits]
        exact congrArg (fun n => some (n, rest)) (Nat.mul_one nanos)

theorem ofLocal?_utc (t : Instant) : ofLocal? t.date t.second t.nanos 0 = some t := by
  have valid := t.valid
  have day : t.second < 86400 := by
    simp only [isTimeOfDay, Bool.and_eq_true, decide_eq_true_eq] at valid
    exact valid.1.1
  have early : ¬ (t.second : Int) - 0 < 0 := by omega
  have late : (t.second : Int) - 0 < 86400 := by omega
  have same : ((t.second : Int) - 0).toNat = t.second := by omega
  simp only [ofLocal?, if_neg early, if_pos late, same, of?, dif_pos valid]

theorem bind_of_eq_some {x : Option α} {f : α → Option β} (h : x = some a) : x >>= f = f a := by
  rw [h]
  rfl

/-- A text with a `Z` at its end names the instant with these parts. -/
theorem parse?_parts {year : Int} {month day hour minute second nanos : Nat}
    (date : month < 100 ∧ day < 100) (time : hour < 24 ∧ minute < 60 ∧ second ≤ 60)
    (fraction : nanos < 1000000000) :
    parse? (yearText year ++ '-' :: (Text.padded 2 month ++ '-' :: (Text.padded 2 day ++
      'T' :: (Text.padded 2 hour ++ ':' :: (Text.padded 2 minute ++ ':' :: (Text.padded 2 second ++
        (fractionText nanos ++ ['Z']))))))) =
    (Date.of? year month day).bind fun date =>
      if second = 60 then ofLocal? date (hour * 3600 + minute * 60 + 59) (nanos + 1000000000) 0
      else ofLocal? date (hour * 3600 + minute * 60 + second) nanos 0 := by
  have two {n : Nat} (h : n < 100) (rest : List Char) :
      number? 2 (Text.padded 2 n ++ rest) = some (n, rest) :=
    number?_padded (by decide) h rest
  have mark {c : Char} (solid : Text.isBlank c = false) (rest : List Char) :
      mark? c (c :: rest) = some rest := by
    simp [mark?, Text.trimStart, solid]
  have ends : fraction? (fractionText nanos ++ ['Z']) = some (nanos, ['Z']) := by
    apply fraction?_fractionText fraction
    rintro c ⟨⟩
    decide
  have begins (rest : List Char) :
      year? (yearText year ++ '-' :: rest) = some (year, '-' :: rest) := by
    apply year?_yearText
    rintro c ⟨⟩
    rfl
  have zone : offset? ['Z'] = some (0, []) := rfl
  have dayEnd (rest : List Char) : parse?.dayEnd? ('T' :: rest) = some rest := rfl
  have checked : guard (Text.isBlankText [] && decide (hour < 24) && decide (minute < 60) &&
      decide (second ≤ 60) && decide ((0 : Int).natAbs < 86400)) = some () :=
    if_pos (by simp [time, Text.isBlankText])
  -- One step for each part, which is read before whatever follows it.
  calc _ = _ := bind_of_eq_some (begins _)
    _ = _ := bind_of_eq_some (mark rfl _)
    _ = _ := bind_of_eq_some (two date.1 _)
    _ = _ := bind_of_eq_some (mark rfl _)
    _ = _ := bind_of_eq_some (two date.2 _)
    _ = _ := bind_of_eq_some (dayEnd _)
    _ = _ := bind_of_eq_some (two (Nat.lt_trans time.1 (by decide)) _)
    _ = _ := bind_of_eq_some (mark rfl _)
    _ = _ := bind_of_eq_some (two (Nat.lt_trans time.2.1 (by decide)) _)
    _ = _ := bind_of_eq_some (mark rfl _)
    _ = _ := bind_of_eq_some (two (Nat.lt_of_le_of_lt time.2.2 (by decide)) _)
    _ = _ := bind_of_eq_some ends
    _ = _ := bind_of_eq_some zone
    _ = _ := bind_of_eq_some checked

theorem monthLength_le (year : Int) (month : Nat) : monthLength year month ≤ 31 := by
  unfold monthLength
  split
  · split <;> decide
  all_goals decide

/-- Every instant is read back from its text. -/
theorem parse?_chars (t : Instant) : parse? t.chars = some t := by
  have date := t.date.valid
  have time := t.valid
  have utc := ofLocal?_utc t
  simp only [isDate, isTimeOfDay, Bool.and_eq_true, Bool.or_eq_true, decide_eq_true_eq] at date time
  have month := monthLength_le t.date.year t.date.month
  have known : Date.of? t.date.year t.date.month t.date.day = some t.date := dif_pos t.date.valid
  simp only [chars, List.append_assoc, List.cons_append]
  rw [parse?_parts (by omega) (by omega) (by omega), known, Option.bind_some]
  -- The seconds of a minute count to 60 only where the nanoseconds go beyond a second.
  split
  · rename_i leap
    have second : t.second / 3600 * 3600 + t.second / 60 % 60 * 60 + 59 = t.second := by omega
    have nanos : t.nanos % 1000000000 + 1000000000 = t.nanos := by omega
    rw [second, nanos, utc]
  · rename_i plain
    have second : t.second / 3600 * 3600 + t.second / 60 % 60 * 60 +
        (t.second % 60 + t.nanos / 1000000000) = t.second := by omega
    have nanos : t.nanos % 1000000000 = t.nanos := by omega
    rw [second, nanos, utc]

end Foreman.Instant

import Foreman.Decimal.Binary64
import Foreman.Text.Blank
import Foreman.Text.Letter

/-!
# Instants

An instant is a date and a time of day in UTC. A leap second is written as second 60 and counts as
a late part of the second before it. Instants are ordered by date, second and nanosecond.
-/

namespace Foreman

def isLeapYear (year : Int) : Bool := year % 4 = 0 && (year % 100 ≠ 0 || year % 400 = 0)

def monthLength (year : Int) (month : Nat) : Nat :=
  match month with
  | 2 => if isLeapYear year then 29 else 28
  | 4 | 6 | 9 | 11 => 30
  | _ => 31

def Date.earliestYear : Int := -262143

def Date.latestYear : Int := 262142

/-- A day of the calendar, in the years that are kept. -/
def isDate (year : Int) (month day : Nat) : Bool :=
  Date.earliestYear ≤ year && year ≤ Date.latestYear && 1 ≤ month && month ≤ 12 && 1 ≤ day &&
    day ≤ monthLength year month

structure Date where
  year : Int
  month : Nat
  day : Nat
  valid : isDate year month day = true
deriving DecidableEq

namespace Date

def of? (year : Int) (month day : Nat) : Option Date :=
  if h : isDate year month day = true then some ⟨year, month, day, h⟩ else none

def next? (d : Date) : Option Date :=
  if d.day < monthLength d.year d.month then of? d.year d.month (d.day + 1)
  else if d.month < 12 then of? d.year (d.month + 1) 1
  else of? (d.year + 1) 1 1

def previous? (d : Date) : Option Date :=
  if 1 < d.day then of? d.year d.month (d.day - 1)
  else if 1 < d.month then of? d.year (d.month - 1) (monthLength d.year (d.month - 1))
  else of? (d.year - 1) 12 31

/-- The days from the first of January of year 1 to that of another year. -/
def daysBeforeYear (year : Int) : Int :=
  let y := year - 1
  365 * y + y / 4 - y / 100 + y / 400

/-- The days of a year before the first of a month. -/
def daysBeforeMonth (year : Int) : Nat → Nat
  | 0 | 1 => 0
  | m + 2 => daysBeforeMonth year (m + 1) + monthLength year (m + 1)

/-- The days since the first of January 1970. -/
def toDays (d : Date) : Int :=
  daysBeforeYear d.year - daysBeforeYear 1970 + daysBeforeMonth d.year d.month + d.day - 1

/-- The month that holds a day of the year, counted from zero, and the day in it. -/
def monthAndDay (year : Int) (day : Nat) : Nat → Nat × Nat
  | 0 => (12, day + 1)
  | n + 1 =>
    let month := 12 - n
    let before := daysBeforeMonth year month
    if day < before + monthLength year month then (month, day - before + 1)
    else monthAndDay year day n

def ofDays? (days : Int) : Option Date :=
  let days := days + daysBeforeYear 1970
  let guess := days * 400 / 146097
  let year :=
    if days < daysBeforeYear (guess + 1) then guess
    else if days < daysBeforeYear (guess + 2) then guess + 1
    else guess + 2
  let (month, day) := monthAndDay year (days - daysBeforeYear year).toNat 12
  of? year month day

end Date

/-- A second of the day and its nanoseconds, of which the last second of a minute may have twice as
many. -/
def isTimeOfDay (second nanos : Nat) : Bool :=
  second < 86400 && nanos < 2000000000 && (nanos < 1000000000 || second % 60 = 59)

structure Instant where
  date : Date
  second : Nat
  nanos : Nat
  valid : isTimeOfDay second nanos = true
deriving DecidableEq

namespace Instant

def of? (date : Date) (second nanos : Nat) : Option Instant :=
  if h : isTimeOfDay second nanos = true then some ⟨date, second, nanos, h⟩ else none

/-- The numbers by which instants are ordered, the first one that differs deciding. -/
def key (t : Instant) : List Int := [t.date.year, t.date.month, t.date.day, t.second, t.nanos]

/-- Whether an instant is strictly earlier than another. -/
def before (s t : Instant) : Bool := decide (s.key < t.key)

theorem before_trans {r s t : Instant} (h : r.before s = true) (h' : s.before t = true) :
    r.before t = true := by
  simp only [before, decide_eq_true_iff] at h h' ⊢
  exact List.lt_trans h h'

theorem before_of_not_before {r s t : Instant} (h : r.before t = true)
    (h' : s.before t = false) : r.before s = true := by
  simp only [before, decide_eq_true_iff, decide_eq_false_iff_not] at h h' ⊢
  by_cases lt : r.key < s.key
  · exact lt
  · exact (h' (List.lt_of_le_of_lt (List.not_lt.1 lt) h)).elim

/-- Whole seconds since the beginning of 1970. -/
def toUnix (t : Instant) : Int := t.date.toDays * 86400 + t.second

def ofUnix? (seconds : Int) (nanos : Nat) : Option Instant := do
  let date ← Date.ofDays? (seconds / 86400)
  of? date (seconds % 86400).toNat nanos

def yearText (year : Int) : List Char :=
  if 0 ≤ year ∧ year ≤ 9999 then Text.padded 4 year.toNat
  else (if year < 0 then '-' else '+') :: Text.padded 4 year.natAbs

/-- Nothing, milliseconds, microseconds or nanoseconds, whatever loses nothing. -/
def fractionText (nanos : Nat) : List Char :=
  if nanos = 0 then []
  else if nanos % 1000000 = 0 then '.' :: Text.padded 3 (nanos / 1000000)
  else if nanos % 1000 = 0 then '.' :: Text.padded 6 (nanos / 1000)
  else '.' :: Text.padded 9 nanos

/-- Date and time as `2023-11-14T22:13:20Z`. A year outside 0 to 9999 has a sign. -/
def chars (t : Instant) : List Char :=
  let leap := t.nanos / 1000000000
  yearText t.date.year ++ '-' :: Text.padded 2 t.date.month ++ '-' :: Text.padded 2 t.date.day ++
    'T' :: Text.padded 2 (t.second / 3600) ++ ':' :: Text.padded 2 (t.second / 60 % 60) ++
    ':' :: Text.padded 2 (t.second % 60 + leap) ++ fractionText (t.nanos % 1000000000) ++ ['Z']

def text (t : Instant) : String := String.ofList t.chars

/-- At least one digit and at most `width` of them, behind white space. -/
def number? (width : Nat) (s : List Char) : Option (Nat × List Char) :=
  let s := Text.trimStart s
  let ds := (s.take width).takeWhile Text.isDigit
  if ds.isEmpty then none else some (Text.digitsValue ds, s.drop ds.length)

/-- A character behind white space. -/
def mark? (c : Char) (s : List Char) : Option (List Char) :=
  match Text.trimStart s with
  | d :: r => if d = c then some r else none
  | [] => none

/-- Four digits at most, or any number of them behind a sign. -/
def year? (s : List Char) : Option (Int × List Char) :=
  match Text.trimStart s with
  | '-' :: r => (signed? r).map fun (n, r) => (-(n : Int), r)
  | '+' :: r => (signed? r).map fun (n, r) => ((n : Int), r)
  | s => (number? 4 s).map fun (n, r) => ((n : Int), r)
where
  /-- The digits directly behind the sign. -/
  signed? (s : List Char) : Option (Nat × List Char) :=
    let ds := s.takeWhile Text.isDigit
    if ds.isEmpty then none else some (Text.digitsValue ds, s.drop ds.length)

/-- The nanoseconds behind a point; digits after the ninth are passed over. -/
def fraction? : List Char → Option (Nat × List Char)
  | '.' :: r =>
    let ds := r.takeWhile Text.isDigit
    if ds.isEmpty then none
    else
      let kept := ds.take 9
      some (Text.digitsValue kept * tenTo (9 - kept.length), r.drop ds.length)
  | s => some (0, s)

def isSeparator (c : Char) : Bool := c == ':' || Text.isBlank c

/-- Hours and minutes of an offset, in seconds. -/
def offsetSize? : List Char → Option (Nat × List Char)
  | a :: b :: r =>
    if Text.isDigit a && Text.isDigit b then
      match r.dropWhile isSeparator with
      | c :: d :: r =>
        if Text.isDigit c && Text.isDigit d && Text.digitsValue [c, d] < 60 then
          some (Text.digitsValue [a, b] * 3600 + Text.digitsValue [c, d] * 60, r)
        else none
      | _ => none
    else none
  | _ => none

/-- Seconds east of Greenwich: `Z`, `UTC`, or a sign with hours and minutes. -/
def offset? (s : List Char) : Option (Int × List Char) :=
  match Text.trimStart s with
  | c :: r =>
    if c = 'Z' ∨ c = 'z' then some (0, r)
    else if Text.lower ((c :: r).take 3) = ['u', 't', 'c'] then some (0, r.drop 2)
    else if c = '+' then (offsetSize? r).map fun (n, r) => ((n : Int), r)
    else if c = '-' ∨ c = '−' then (offsetSize? r).map fun (n, r) => (-(n : Int), r)
    else none
  | [] => none

/-- The instant that a date and a local time name, `offset` seconds east of Greenwich. -/
def ofLocal? (date : Date) (second nanos : Nat) (offset : Int) : Option Instant :=
  let utc := (second : Int) - offset
  if utc < 0 then date.previous?.bind fun d => of? d (utc + 86400).toNat nanos
  else if utc < 86400 then of? date utc.toNat nanos
  else date.next?.bind fun d => of? d (utc - 86400).toNat nanos

/-- Reads a date and a time with an offset. White space may stand before each number and mark but
the one between date and time, which is `T`, `t` or a blank. -/
def parse? (s : List Char) : Option Instant := do
  let (year, s) ← year? s
  let s ← mark? '-' s
  let (month, s) ← number? 2 s
  let s ← mark? '-' s
  let (day, s) ← number? 2 s
  let s ← dayEnd? s
  let (hour, s) ← number? 2 s
  let s ← mark? ':' s
  let (minute, s) ← number? 2 s
  let s ← mark? ':' s
  let (second, s) ← number? 2 s
  let (nanos, s) ← fraction? s
  let (offset, s) ← offset? s
  guard (Text.isBlankText s && hour < 24 && minute < 60 && second ≤ 60 && offset.natAbs < 86400)
  let date ← Date.of? year month day
  let ofDay := hour * 3600 + minute * 60
  if second = 60 then ofLocal? date (ofDay + 59) (nanos + 1000000000) offset
  else ofLocal? date (ofDay + second) nanos offset
where
  /-- The mark between date and time. -/
  dayEnd? : List Char → Option (List Char)
    | c :: r => if c = 'T' ∨ c = 't' ∨ c = ' ' then some r else none
    | [] => none

end Instant

end Foreman

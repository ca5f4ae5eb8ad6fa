/-!
# Searching a text

Occurrences are looked for from left to right. Those that `offsets` lists do not overlap: the search
goes on behind each one it has found.
-/

namespace Foreman.Text

/-- Whether `needle` occurs somewhere in the text. -/
def occursIn (needle : List Char) : List Char → Bool
  | [] => needle.isEmpty
  | c :: r => needle.isPrefixOf (c :: r) || occursIn needle r

theorem occursIn_iff {needle s : List Char} : occursIn needle s = true ↔ needle <:+: s := by
  induction s with
  | nil => simp [occursIn, List.infix_nil]
  | cons c r ih => simp [occursIn, ih, List.infix_cons_iff]

/-- The number of characters before the first occurrence of `needle`. -/
def offset? (needle : List Char) : List Char → Option Nat
  | [] => if needle.isEmpty then some 0 else none
  | c :: r => if needle.isPrefixOf (c :: r) then some 0 else (offset? needle r).map (· + 1)

/-- `offsetsFrom needle pos skip s` lists the occurrences in `s`, which begins at offset `pos`, and
passes over the first `skip` characters. -/
def offsetsFrom (needle : List Char) : Nat → Nat → List Char → List Nat
  | pos, skip, [] => if skip = 0 ∧ needle = [] then [pos] else []
  | pos, skip + 1, _ :: r => offsetsFrom needle (pos + 1) skip r
  | pos, 0, c :: r =>
    if needle.isPrefixOf (c :: r) then pos :: offsetsFrom needle (pos + 1) (needle.length - 1) r
    else offsetsFrom needle (pos + 1) 0 r

/-- The offsets of the occurrences of `needle` that do not overlap. An empty needle occurs at every
offset. -/
def offsets (needle s : List Char) : List Nat := offsetsFrom needle 0 0 s

/-- What stands before and after the first occurrence of `needle`. -/
def cut? (needle s : List Char) : Option (List Char × List Char) :=
  (offset? needle s).map fun i => (s.take i, s.drop (i + needle.length))

/-- `substituteFrom needle by skip s` drops the first `skip` characters of `s`, then replaces. -/
def substituteFrom (needle replacement : List Char) : Nat → List Char → List Char
  | _, [] => []
  | skip + 1, _ :: r => substituteFrom needle replacement skip r
  | 0, c :: r =>
    if needle.isPrefixOf (c :: r) then
      replacement ++ substituteFrom needle replacement (needle.length - 1) r
    else c :: substituteFrom needle replacement 0 r

/-- The text with `replacement` in place of every occurrence of a `needle` that is not empty. -/
def substitute (needle replacement s : List Char) : List Char :=
  substituteFrom needle replacement 0 s

/-- The pieces between the occurrences of a separator; a text without one is a single piece. -/
def pieces (separator : Char) : List Char → List (List Char)
  | [] => [[]]
  | c :: r =>
    if c = separator then [] :: pieces separator r
    else
      match pieces separator r with
      | [] => [[c]]
      | p :: ps => (c :: p) :: ps

/-- A line without the carriage return that may end it. -/
def chomp (line : List Char) : List Char :=
  if line.getLast? = some '\r' then line.dropLast else line

/-- The lines of a text: each line feed ends one, alone or after a carriage return, and text behind
the last line feed is one more line, kept as it is. -/
def lines (s : List Char) : List (List Char) :=
  let parts := pieces '\n' s
  parts.dropLast.map chomp ++ (match parts.getLast? with | some [] | none => [] | some p => [p])

end Foreman.Text

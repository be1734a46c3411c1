/-
  EsFeatures.Text.Position

  Lines and columns of a source, both counted from one.  A line ends with a line
  feed and with nothing else.  The line of an offset is found by halving the table
  of the offsets at which lines start.
-/

namespace EsFeatures.Text

/-- A place in a source, as a reader counts it. -/
structure Position where
  line : Nat
  column : Nat
deriving Repr, DecidableEq

/-- The offsets at which lines start, given the offset of the text's first
    character. -/
def lineStartsFrom (offset : Nat) : List Char → List Nat
  | [] => []
  | c :: rest =>
    if c = '\n' then (offset + 1) :: lineStartsFrom (offset + 1) rest
    else lineStartsFrom (offset + 1) rest

/-- The offsets at which the lines of a text start. -/
def lineStarts (text : List Char) : List Nat :=
  0 :: lineStartsFrom 0 text

/-- Halves the part of an increasing table from `low` up to `high` until it is empty.
    It ends in front of the first entry beyond `place`. -/
def bisectFrom (table : Array Nat) (place low high : Nat) (hhigh : high ≤ table.size) : Nat :=
  if h : low < high then
    let middle := (low + high) / 2
    have hmiddle : middle < table.size := by omega
    if place < table[middle] then bisectFrom table place low middle (by omega)
    else bisectFrom table place (middle + 1) high hhigh
  else low
termination_by high - low

/-- The number of entries of an increasing table that are not beyond `place`. -/
def bisect (table : Array Nat) (place : Nat) : Nat :=
  bisectFrom table place 0 table.size (Nat.le_refl _)

theorem bisectFrom_le (table : Array Nat) (place low high : Nat) (hhigh : high ≤ table.size)
    (h : low ≤ high) : bisectFrom table place low high hhigh ≤ high := by
  fun_induction bisectFrom table place low high hhigh with
  | case1 low high hhigh hlow middle hmiddle hbeyond ih => omega
  | case2 low high hhigh hlow middle hmiddle hbeyond ih => omega
  | case3 => exact h

theorem bisect_le (table : Array Nat) (place : Nat) : bisect table place ≤ table.size :=
  bisectFrom_le table place 0 table.size _ (Nat.zero_le _)

/-- The entry in front of which, or on which, a search of the line table ends is one of
    the table. -/
theorem bisect_sub_one_lt (text : List Char) (place : Nat) :
    bisect (lineStarts text).toArray place - 1 < (lineStarts text).toArray.size := by
  have hle := bisect_le (lineStarts text).toArray place
  rw [List.size_toArray, lineStarts, List.length_cons] at *
  omega

/-- The place of a character offset.  A negative offset is an unknown place and
    counts as the first; an offset past the end counts as the end. -/
def Position.ofOffset (source : String) (offset : Int) : Position :=
  if offset < 0 then ⟨1, 1⟩
  else
    let text := source.toList
    let place := min offset.toNat text.length
    let starts := (lineStarts text).toArray
    let line := bisect starts place
    have hline : line - 1 < starts.size := bisect_sub_one_lt text place
    ⟨line, place - starts[line - 1] + 1⟩

end EsFeatures.Text

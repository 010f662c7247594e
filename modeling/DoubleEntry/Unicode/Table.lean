/-! Tables of code points, written as numbers in base 36 with blanks between them. -/

namespace DoubleEntry.Unicode

def digitValue (c : Char) : Nat := if c.isDigit then c.toNat - 48 else c.toNat - 87

def numberValue (digits : List Char) : Nat :=
  digits.foldl (fun value c => value * 36 + digitValue c) 0

def tableWords (text : String) : List (List Char) :=
  (text.toList.splitOnP fun c => c == ' ' || c == '\n').filter fun word => !word.isEmpty

def tableNumbers (text : String) : List Nat := (tableWords text).map numberValue

/-- The index of the last number that is not above `bound` in an increasing array, searching `steps`
halves of the indices from `low` up to `high`. -/
def lastAtMost.search (starts : Array Nat) (bound : Nat) : (steps low high : Nat) → Nat
  | 0, low, _ => low
  | steps + 1, low, high =>
    if high ≤ low + 1 then low
    else
      let middle := (low + high) / 2
      if starts.getD middle 0 ≤ bound then search starts bound steps middle high
      else search starts bound steps low middle

/-- The index of the last number that is not above `bound` in an increasing array; 0 if all are. -/
def lastAtMost (starts : Array Nat) (bound : Nat) : Nat :=
  lastAtMost.search starts bound starts.size 0 starts.size

/-- Ranges of code points in increasing order. -/
structure RangeTable where
  starts : Array Nat
  ends : Array Nat

/-- Reads ranges, each as the gap in front of it and its length. -/
def RangeTable.ofNumbers (next : Nat) : List Nat → List (Nat × Nat)
  | gap :: length :: rest =>
    (next + gap, next + gap + length) :: ofNumbers (next + gap + length) rest
  | _ => []

def RangeTable.ofText (text : String) : RangeTable :=
  let ranges := RangeTable.ofNumbers 0 (tableNumbers text)
  ⟨(ranges.map (·.1)).toArray, (ranges.map (·.2)).toArray⟩

def RangeTable.contains (table : RangeTable) (c : Char) : Bool :=
  let index := lastAtMost table.starts c.toNat
  table.starts.getD index 0 ≤ c.toNat && c.toNat < table.ends.getD index 0

end DoubleEntry.Unicode

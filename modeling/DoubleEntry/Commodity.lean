import DoubleEntry.Decimal.Text
import DoubleEntry.Text.Blank

/-! Units of exchange: currencies, shares, coins. A commodity is known by its name as written, with
its blanks, and by the side of the number on which it stands. -/

namespace DoubleEntry

/-- A commodity; `leading` if it is written before the number. -/
structure Commodity where
  name : String
  leading : Bool
  deriving DecidableEq, Inhabited

namespace Commodity

/-- By name, then those after the number before those in front of it. -/
instance : Ord Commodity := ⟨compareLex (compareOn (·.name)) (compareOn (·.leading))⟩

instance : Std.TransOrd Commodity :=
  inferInstanceAs
    (Std.TransCmp (compareLex (compareOn Commodity.name) (compareOn Commodity.leading)))

instance : Std.LawfulEqOrd Commodity where
  eq_of_compare {a b} same := by
    obtain ⟨sameName, sameSide⟩ := compareLex_eq_eq.mp same
    cases a; cases b
    simp only [compareOn, Std.LawfulEqOrd.compare_eq_iff_eq] at sameName sameSide
    simp_all

/-- The commodity of a number that stands alone. -/
def bare : Commodity := ⟨"", false⟩

def symbol (commodity : Commodity) : String := Text.trimmed commodity.name

def defaultPlaces : Nat := 2

def format (commodity : Commodity) (amount : Decimal) (places : Nat := defaultPlaces) : String :=
  let number := String.ofList (amount.fixedText places)
  if commodity.leading then commodity.name ++ number else number ++ commodity.name

end Commodity

end DoubleEntry

import DoubleEntry.Commodity
import DoubleEntry.Decimal.Sum
import DoubleEntry.Progress
import DoubleEntry.SortedMap

/-! Balances: an amount per commodity. Amounts of one commodity add up; amounts of different
commodities stay apart. -/

namespace DoubleEntry

/-- An amount for each of finitely many commodities, in order of the commodities. -/
abbrev Balance := SortedMap Commodity Decimal

/-- A sum that is too large for a decimal. -/
structure Overflow where
  commodity : Commodity
  total : Decimal
  amount : Decimal
  deriving DecidableEq

def Overflow.message (overflow : Overflow) : String :=
  s!"Amount overflow adding {overflow.amount} to {overflow.total} of commodity " ++
    s!"'{overflow.commodity.symbol}'"

namespace Balance

def single (commodity : Commodity) (amount : Decimal) : Balance :=
  SortedMap.insert ∅ commodity amount

/-- The amount of a commodity, zero if the balance does not mention it. -/
def amountOf (balance : Balance) (commodity : Commodity) : Decimal :=
  (balance.find? commodity).getD .zero

/-- Adds an amount. The commodity is mentioned afterwards even if the sum is too large. -/
def post (balance : Balance) (commodity : Commodity) (amount : Decimal) :
    Progress Balance Overflow :=
  let total := balance.amountOf commodity
  match total.add? amount with
  | some sum => ⟨balance.insert commodity sum, none⟩
  | none => ⟨balance.insert commodity total, some ⟨commodity, total, amount⟩⟩

/-- Adds amounts in turn, up to the first sum that is too large. -/
def postAll (balance : Balance) (amounts : List (Commodity × Decimal)) :
    Progress Balance Overflow :=
  Progress.foldl (fun balance amount => balance.post amount.1 amount.2) balance amounts

/-- Adds every amount of `other`, in order of the commodities. -/
def merge (balance other : Balance) : Progress Balance Overflow := balance.postAll other.entries

def isZero (balance : Balance) : Bool := balance.values.all Decimal.isZero

def neg (balance : Balance) : Balance := balance.mapValues (- ·)

def nonzero (balance : Balance) : Balance := balance.filter fun _ amount => !amount.isZero

def texts (balance : Balance) (places : Nat := Commodity.defaultPlaces) : List String :=
  balance.entries.map fun entry => entry.1.format entry.2 places

end Balance

end DoubleEntry

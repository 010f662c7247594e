import DoubleEntry.Transaction

/-! What a journal consists of. -/

namespace DoubleEntry

/-- A conversion rate at some time, kept and never applied. -/
structure Price where
  timestamp : Timestamp
  source : Commodity
  dest : Commodity
  rate : Decimal
  deriving DecidableEq

/-- A record of a journal. -/
inductive Directive where
  | transaction (transaction : Transaction)
  | price (price : Price)
  | ignoreSymbol (symbol : String)
  | defaultCommodity (commodity : Commodity)
  deriving DecidableEq

/-- A directive with the numbers of its first and last line and the file it stands in; `none` for a
journal held in memory. -/
structure Located where
  directive : Directive
  first : Nat
  last : Nat
  source : Option String
  deriving DecidableEq

end DoubleEntry

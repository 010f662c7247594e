import DoubleEntry.Transaction

/-! Double entry: the amounts of a transaction cancel out, commodity by commodity. The one posting
whose amounts are left out takes what the others leave over. -/

namespace DoubleEntry

/-- Why a transaction cannot be completed. -/
inductive BalanceError where
  | ambiguousElision (header : String) (count : Nat)
  | overflow (overflow : Overflow)
  deriving DecidableEq

def BalanceError.message : BalanceError → String
  | .ambiguousElision header count =>
    s!"Transaction '{header}' has {count} postings without an amount, at most one is allowed"
  | .overflow fault => fault.message

namespace Transaction

/-- The sum of all amounts that are written, posting by posting. -/
def totals (transaction : Transaction) : Except Overflow Balance :=
  (Progress.foldl Balance.merge ∅ (transaction.postings.filterMap Posting.amounts)).toExcept

def elisions (transaction : Transaction) : Nat := transaction.postings.countP Posting.isElided

/-- The transaction with `amounts` where they were left out. -/
def fill (transaction : Transaction) (amounts : Balance) : Transaction :=
  { transaction with
    postings := transaction.postings.map fun posting =>
      if posting.isElided then { posting with amounts := some amounts } else posting }

/-- The transaction with all amounts. The elided posting gets the negated total of every commodity,
also of one that cancels out already. -/
def completed (transaction : Transaction) : Except BalanceError Transaction :=
  match transaction.elisions with
  | 0 => .ok transaction
  | 1 =>
    match transaction.totals with
    | .ok totals => .ok (transaction.fill totals.neg)
    | .error overflow => .error (.overflow overflow)
  | count => .error (.ambiguousElision transaction.header count)

/-- Whether the amounts cancel out. With an elided posting they do; two commodities are taken to be
exchanged for each other; what cannot be summed up does not balance. -/
def isBalanced (transaction : Transaction) : Bool :=
  transaction.postings.any Posting.isElided ||
    match transaction.totals with
    | .error _ => false
    | .ok totals => totals.entries.length == 2 || totals.isZero

end Transaction

end DoubleEntry

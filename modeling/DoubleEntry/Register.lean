import DoubleEntry.Journal

/-! Registers: the selected postings in order, each with the running total after it. -/

namespace DoubleEntry

/-- A selected posting. `total` adds up every change so far, without the commodities that are
zero. -/
structure RegisterLine where
  account : String
  change : Balance
  total : Balance
  deriving DecidableEq

/-- The selected postings of a transaction, which is shown with all its amounts. -/
structure RegisterEntry where
  transaction : Transaction
  lines : List RegisterLine

namespace Register

/-- The lines of some postings behind a running total, with the running total after them. -/
def lines (total : Balance) : List Posting → Except Overflow (List RegisterLine × Balance)
  | [] => .ok ([], total)
  | posting :: postings => do
    let change := posting.amounts.getD ∅
    let total ← (total.merge change).toExcept
    let (later, last) ← lines total postings
    return (⟨posting.accountName, change, total.nonzero⟩ :: later, last)

variable [PatternEngine]

/-- The entries of some transactions behind a running total. Postings are selected as they are
written and shown with all their amounts. -/
def entries (query : Query) (total : Balance) :
    List Transaction → Except BalanceError (List RegisterEntry)
  | [] => .ok []
  | transaction :: transactions =>
    let selected := query.execute transaction
    if selected.isEmpty then entries query total transactions
    else do
      let completed ← transaction.completed
      let (lines, total) ← (lines total (Query.postingsAt completed selected)).mapError .overflow
      let later ← entries query total transactions
      return ⟨completed, lines⟩ :: later

end Register

def Journal.register [PatternEngine] (journal : Journal) (query : Query) :
    Except BalanceError (List RegisterEntry) :=
  Register.entries query ∅ journal.transactions

end DoubleEntry

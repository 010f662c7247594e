import DoubleEntry.Journal

/-! Sorting transactions. Those that the terms do not tell apart stay in the order given. -/

namespace DoubleEntry

inductive SortKey where
  | date
  deriving DecidableEq

structure SortTerm where
  key : SortKey
  descending : Bool
  deriving DecidableEq

namespace SortTerm

/-- Reads a key, with a minus sign in front for the opposite direction. The error is the text
without blanks around it. -/
def ofText (text : String) : Except String SortTerm :=
  let term := Text.trim text.toList
  let (descending, name) := match term with
    | '-' :: name => (true, name)
    | name => (false, name)
  if name == "d".toList || name == "date".toList then .ok ⟨.date, descending⟩
  else .error (String.ofList term)

def order (term : SortTerm) (a b : Transaction) : Ordering :=
  let ordering := match term.key with
    | .date => compare a.date b.date
  if term.descending then ordering.swap else ordering

/-- The order of two transactions by the first of some terms that tells them apart. -/
def orderBy : List SortTerm → Transaction → Transaction → Ordering
  | [], _, _ => .eq
  | term :: terms, a, b => (term.order a b).then (orderBy terms a b)

end SortTerm

def sortTransactions (terms : List SortTerm) (transactions : List Transaction) :
    List Transaction :=
  transactions.mergeSort fun a b => (SortTerm.orderBy terms a b).isLE

def Journal.sort (journal : Journal) (terms : List SortTerm) : Journal :=
  { journal with transactions := sortTransactions terms journal.transactions }

end DoubleEntry

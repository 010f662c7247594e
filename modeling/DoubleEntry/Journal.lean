import DoubleEntry.AccountArena
import DoubleEntry.Log
import DoubleEntry.Parse

/-! Journals: everything that was read, with indexes of the accounts and the commodities. -/

namespace DoubleEntry

/-- The content of one or more journal files. -/
structure Journal where
  transactions : List Transaction := []
  accounts : SortedSet (List String) := ∅
  commodities : SortedSet Commodity := ∅
  prices : List Price := []
  defaultCommodity : Option Commodity := none
  ignoredSymbols : List String := []

namespace Journal

/-- The commodities of the amounts that are written in a posting. -/
def commoditiesOf (posting : Posting) : List Commodity :=
  (posting.amounts.map SortedMap.keys).getD []

def addTransaction (journal : Journal) (transaction : Transaction) : Journal :=
  { journal with
    transactions := journal.transactions ++ [transaction]
    accounts := SortedSet.insertAll journal.accounts (transaction.postings.map Posting.account)
    commodities :=
      SortedSet.insertAll journal.commodities (transaction.postings.flatMap commoditiesOf) }

/-- Adds a directive. The default commodity is that of the last directive that sets it. -/
def addDirective (journal : Journal) : Directive → Journal
  | .transaction transaction => journal.addTransaction transaction
  | .price price => { journal with prices := journal.prices ++ [price] }
  | .ignoreSymbol symbol => { journal with ignoredSymbols := journal.ignoredSymbols ++ [symbol] }
  | .defaultCommodity commodity => { journal with defaultCommodity := some commodity }

def addAll (journal : Journal) (directives : List Located) : Journal :=
  directives.foldl (fun journal located => journal.addDirective located.directive) journal

/-- Adds the directives of a file, and gives their number. Nothing is added if one is at fault. -/
def addFile (journal : Journal) (fs : FileSystem) (path : String) :
    Except ParseError (Journal × Nat) := do
  let directives ← parseFile fs path
  return (journal.addAll directives, directives.length)

def loadedRecord (path : String) (count : Nat) : LogRecord :=
  ⟨.info, .journal, s!"Loaded {count} directives from {path}"⟩

section

variable [PatternEngine]

/-- The transactions with a posting that a query selects. -/
def selected (journal : Journal) (query : Query) : List Transaction :=
  journal.transactions.filter query.selects

def accountTree (journal : Journal) (query : Query) : Progress Account BalanceError :=
  ((∅ : Arena).postTransactions query journal.transactions).lift Arena.account

end

def unbalanced (journal : Journal) : List Transaction :=
  journal.transactions.filter fun transaction => !transaction.isBalanced

/-- The records of transactions that do not balance. -/
def unbalancedRecords (journal : Journal) : List LogRecord :=
  journal.unbalanced.map fun transaction =>
    ⟨.warn, .journal, s!"Transaction unbalanced: {transaction.header}"⟩

end Journal

end DoubleEntry

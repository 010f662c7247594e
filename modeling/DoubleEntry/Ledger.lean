import DoubleEntry.Config
import DoubleEntry.LedgerError
import DoubleEntry.Report
import DoubleEntry.Sorting

/-! Ledgers: a configuration with the journal that was last loaded for it. A load that fails leaves
the journal as it was. -/

namespace DoubleEntry

/-- How a configuration shows amounts. -/
def Config.renderer (config : Config) : Renderer := ⟨config.places, config.width⟩

/-- The files to read, the prices first. -/
def Config.sources (config : Config) : List String := config.priceFile.toList ++ config.files

/-- Adds files to a journal in turn, with a record of each, until one is at fault. -/
def Journal.addFiles (fs : FileSystem) (paths : List String) :
    Progress (Journal × List LogRecord) ParseError :=
  Progress.foldl (fun (journal, records) path =>
    match journal.addFile fs path with
    | .ok (journal, count) => { state := (journal, records ++ [loadedRecord path count]) }
    | .error error => { state := (journal, records), fault := some error }) ({}, []) paths

/-- A configuration, its sort terms, and the journal, if one has been loaded. -/
structure Ledger where
  config : Config
  sortTerms : List SortTerm
  journal? : Option Journal := none

namespace Ledger

def ofConfig (config : Config) : Except LedgerError Ledger := do
  let sortTerms ← (config.sortTerms.mapM SortTerm.ofText).mapError .unknownSortTerm
  return { config, sortTerms }

def loadedRecord (journal : Journal) : LogRecord :=
  ⟨.info, .ledger, s!"Journal loaded: {journal.transactions.length} transactions, " ++
    s!"{journal.accounts.entries.length} accounts, {journal.prices.length} prices"⟩

/-- Reads all files anew, as they are now, and sorts the journal. -/
def load (ledger : Ledger) (fs : FileSystem) :
    Progress (Ledger × List LogRecord) LedgerError :=
  if !ledger.config.hasJournal then { state := (ledger, []), fault := some .noJournalFiles }
  else
    let { state := (journal, records), fault } := Journal.addFiles fs ledger.config.sources
    match fault with
    | some error => { state := (ledger, records), fault := some (.parse error) }
    | none =>
      let journal := journal.sort ledger.sortTerms
      { state := ({ ledger with journal? := some journal }, records ++ [loadedRecord journal]) }

/-- Loads again what has been loaded before. -/
def reload (ledger : Ledger) (fs : FileSystem) :
    Progress (Ledger × List LogRecord) LedgerError :=
  if ledger.journal?.isNone then { state := (ledger, []), fault := some .notLoaded }
  else ledger.load fs

def isLoaded (ledger : Ledger) : Bool := ledger.journal?.isSome

def journal (ledger : Ledger) : Except LedgerError Journal :=
  match ledger.journal? with
  | some journal => .ok journal
  | none => .error .notLoaded

def unbalanced (ledger : Ledger) : Except LedgerError (List Transaction) :=
  ledger.journal.map Journal.unbalanced

variable [PatternEngine]

/-- The balances of the accounts with postings that a query selects. -/
def balanceReport (ledger : Ledger) (query : Query) : Except LedgerError BalanceReport := do
  ((← ledger.journal).balanceReport query).mapError .balance

def register (ledger : Ledger) (query : Query) : Except LedgerError (List RegisterEntry) := do
  ((← ledger.journal).register query).mapError .balance

def selected (ledger : Ledger) (query : Query) : Except LedgerError (List Transaction) :=
  ledger.journal.map (·.selected query)

end Ledger

end DoubleEntry

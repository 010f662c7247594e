import DoubleEntry.Balancing
import DoubleEntry.ConfigError
import DoubleEntry.JsonValue
import DoubleEntry.Log
import DoubleEntry.ParseError
import DoubleEntry.Query.Filter

/-! Everything that can go wrong with a ledger, how bad it is, and what helps against it. -/

namespace DoubleEntry

/-- How bad an error is. -/
inductive Severity where
  | warning
  | error
  | critical
  deriving DecidableEq

def Severity.name : Severity → String
  | warning => "warning"
  | error => "error"
  | critical => "critical"

/-- Why a ledger cannot do what it is asked for. -/
inductive LedgerError where
  | notLoaded
  | noJournalFiles
  | parse (error : ParseError)
  | balance (error : BalanceError)
  | filter (error : FilterError)
  | config (error : ConfigError)
  | unknownSortTerm (term : String)

namespace LedgerError

def code : LedgerError → String
  | notLoaded => "NOT_LOADED"
  | noJournalFiles => "NO_JOURNAL_FILES"
  | parse _ => "PARSE_ERROR"
  | balance _ => "BALANCE_ERROR"
  | filter _ => "EXPRESSION_ERROR"
  | config _ => "CONFIG_ERROR"
  | unknownSortTerm _ => "INVALID_SORT_TERM"

def severity : LedgerError → Severity
  | notLoaded => .warning
  | config _ => .critical
  | _ => .error

def message : LedgerError → String
  | notLoaded => "Ledger not loaded"
  | noJournalFiles => "No journal files given"
  | parse error => error.message
  | balance error => error.message
  | filter error => error.message
  | config error => s!"Configuration error: {error.message}"
  | unknownSortTerm term => s!"Unknown sort term: {term}"

/-- The message followed by what the operating system says. -/
def chain : LedgerError → String
  | parse error => error.chain
  | error => error.message

/-- What is known about an error besides its message. -/
def facts : LedgerError → Option JsonValue
  | parse error => some (.object [("parse_message", .text error.fault.message)])
  | filter error => some (.object [("expression_message", .text error.message)])
  | _ => none

def suggestions : LedgerError → List String
  | notLoaded => ["Load the journal before asking for reports."]
  | noJournalFiles => ["Pass a journal with -f FILE.",
    "Or list it under journal.files in the config file."]
  | parse _ => ["Check the syntax of the journal line."]
  | balance (.ambiguousElision header _) =>
    [s!"Give every posting but one of '{header}' an explicit amount."]
  | balance (.overflow overflow) =>
    [s!"Amounts of '{overflow.commodity.symbol}' exceed the exact decimal range; " ++
      "split them across accounts or commodities."]
  | filter _ => ["Filters combine account patterns with and, or, not, payee and parentheses."]
  | config error => error.suggestions
  | unknownSortTerm _ => ["Supported sort terms are d and date, prefixed by - to reverse."]

def location? : LedgerError → Option Location
  | parse error => error.location
  | _ => none

def details (error : LedgerError) : String :=
  let listed := error.suggestions.map ("\n  - " ++ ·)
  s!"[{error.code}] {error.message}" ++
    (error.facts.elim "" fun facts => s!"\nDetails: {facts.compact}") ++
    (if listed.isEmpty then "" else "\nSuggestions:" ++ String.join listed) ++
    (error.location?.elim "" fun location => s!"\nLocation: {location.text}")

end LedgerError

/-- What was being done, and with what, when something went wrong. -/
structure FaultContext where
  operation : String := ""
  data : SortedMap String JsonValue := ∅

/-- How records tell of a context. -/
def FaultContext.text (context : FaultContext) : String :=
  let data := JsonValue.object context.data.entries
  s!" - Operation: {context.operation} - Context: {data.compact}"

def LedgerError.record (error : LedgerError) (context : FaultContext) : LogRecord :=
  ⟨.error, .fault, s!"ERROR [{error.code}] {error.details}" ++ context.text⟩

def warningRecord (message : String) (context : FaultContext) : LogRecord :=
  ⟨.warn, .fault, s!"WARNING: {message}" ++ context.text⟩

end DoubleEntry

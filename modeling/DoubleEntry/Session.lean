import DoubleEntry.CommandLine
import DoubleEntry.Ledger

/-! Runs of the program: from a command line and the files to what is written and the status. -/

namespace DoubleEntry

/-- What a run writes, and the status it ends with. -/
structure Outcome where
  status : Nat := 0
  output : String := ""
  errors : String := ""
  deriving DecidableEq

namespace Outcome

/-- A run that ends with an error. -/
def failure (message : String) : Outcome := { status := 1, errors := s!"error: {message}\n" }

/-- A run that writes a report. -/
def success (report : String) : Outcome := { output := report ++ "\n" }

end Outcome

def versionText : String := "ledgerite 0.1.0"

def usageText : String :=
  Text.joinLines
    ["Balance and register reports for plain-text ledger journals",
      "",
      "Usage: ledgerite [OPTIONS] <COMMAND>",
      "",
      "Commands:",
      "  balance         Account balances as a tree [aliases: bal]",
      "  register        Selected postings with a running total [aliases: reg, r]",
      "  print           Matching transactions in journal format",
      "  default-config  Write the default configuration to stdout",
      "",
      "Options:",
      "  -c, --config <CONFIG>  Configuration file path",
      "  -f, --file <FILE>      Journal file; replaces the files listed in the config when given",
      "      --price-db <FILE>  Price database, read before the journal files",
      "  -S, --sort <SORT>      Comma separated sort terms, e.g. \"-d\"",
      "  -h, --help             Print help",
      "  -V, --version          Print version"]

namespace Options

/-- The configuration that the options ask for: that of a file, or the default, with the values of
the command line in place of its own. -/
def configuration (options : Options) (fs : FileSystem) : Except ConfigError Config := do
  let config ← match options.config with
    | some path => Config.ofFile fs path
    | none => .ok default
  return { config with
    files := if options.files.isEmpty then config.files else options.files
    priceFile := options.priceFile.or config.priceFile
    sort := options.sort.or config.sort }

end Options

namespace Command

def openLedger (fs : FileSystem) (config : Config) : Except LedgerError Ledger := do
  let ledger ← Ledger.ofConfig config
  return (← (ledger.load fs).toExcept).1

variable [PatternEngine]

def queryOf (words : List String) : Except LedgerError Query :=
  (Query.ofWords words).mapError .filter

/-- What a run writes if transactions do not balance. -/
def unbalancedOutcome (transactions : List Transaction) : Outcome where
  status := 1
  errors := String.join
    (transactions.map fun transaction => s!"ERROR! Transaction unbalanced: {transaction.header}\n")

/-- Makes a report if all transactions balance. -/
def whenBalanced (ledger : Ledger) (report : Except LedgerError String) :
    Except LedgerError Outcome := do
  let unbalanced ← ledger.unbalanced
  if unbalanced.isEmpty then return .success (← report) else return unbalancedOutcome unbalanced

/-- Carries out a command. Transactions that do not balance can only be printed. -/
def outcome (fs : FileSystem) (config : Config) : Command → Except LedgerError Outcome
  | balance words => do
    let ledger ← openLedger fs config
    whenBalanced ledger do
      return config.renderer.balance (← ledger.balanceReport (← queryOf words))
  | register words => do
    let ledger ← openLedger fs config
    whenBalanced ledger do
      return config.renderer.register (← ledger.register (← queryOf words))
  | print words => do
    let ledger ← openLedger fs config
    return .success (printTransactions (← ledger.selected (← queryOf words)))
  | defaultConfig => .ok (.success (String.ofList (Text.trimEnd Config.template.toList)))

end Command

/-- A run with the options and the command of a command line. -/
def Options.outcome [PatternEngine] (options : Options) (fs : FileSystem) (command : Command) : Outcome :=
  match options.configuration fs with
  | .error error =>
    let path := options.config.getD ""
    .failure s!"loading {path}: {error.message}"
  | .ok config =>
    match command.outcome fs config with
    | .ok outcome => outcome
    | .error error => .failure error.chain

/-- A run of the program over some files. -/
def runProgram [PatternEngine] (fs : FileSystem) (arguments : List String) : Outcome :=
  match Request.ofArguments arguments with
  | .ok (.run options command) => options.outcome fs command
  | .ok .version => .success versionText
  | .ok .help => .success usageText
  | .error error => { status := 2, errors := s!"error: {error.message}\n\n{usageText}\n" }

end DoubleEntry

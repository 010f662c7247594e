import DoubleEntry.ConfigError
import DoubleEntry.Files.FileSystem
import DoubleEntry.Text.Blank
import DoubleEntry.Yaml.Document

/-! Configurations: which journals to read, and how reports look. They are written in YAML; what is
left out has a default. -/

namespace DoubleEntry

/-- A configuration as it is written. -/
structure Settings where
  files : List String := []
  priceFile : Option String := none
  sort : Option String := none
  places : Nat := 2
  width : Nat := 20
  logLevel : String := "warn"

/-- The levels down to which a log may be kept. -/
def logLevels : List String := ["off", "error", "warn", "info", "debug", "trace"]

/-- Whether a text names a level, in small or capital letters. -/
def isLogLevel (text : String) : Bool := logLevels.contains (text.map Char.toLower)

/-- A configuration that reports can be made with. -/
structure Config extends Settings where
  places_le : places ≤ 10 := by decide
  width_pos : 0 < width := by decide
  isLogLevel_logLevel : isLogLevel logLevel = true := by decide +kernel

instance : Inhabited Config := ⟨{}⟩

namespace Settings

open Yaml (Document)

/-- Takes a field of a section up into some settings, with what `read` finds in it. -/
def take {α : Type} (fields : Yaml.Section) (name : String)
    (read : Yaml.Node Nat → Option α) (put : Settings → α → Settings) (settings : Settings) :
    Option Settings := do
  match ← fields.field? name with
  | none => return settings
  | some node => return put settings (← read node)

def ofJournal? (document : Document) (settings : Settings) (node : Yaml.Node Nat) :
    Option Settings := do
  let fields ← document.section? node
  let settings ← settings.take fields "files"
    (fun node => do (← document.items? node).mapM document.text?)
    fun settings files => { settings with files }
  settings.take fields "price_db" document.optionalText?
    fun settings priceFile => { settings with priceFile }

def ofReport? (document : Document) (settings : Settings) (node : Yaml.Node Nat) :
    Option Settings := do
  let fields ← document.section? node
  let settings ← settings.take fields "sort" document.optionalText?
    fun settings sort => { settings with sort }
  let settings ← settings.take fields "decimal_places" (document.number? UInt32.size)
    fun settings places => { settings with places }
  settings.take fields "amount_width" (document.number? UInt64.size)
    fun settings width => { settings with width }

def ofLogging? (document : Document) (settings : Settings) (node : Yaml.Node Nat) :
    Option Settings := do
  let fields ← document.section? node
  settings.take fields "level" document.text? fun settings logLevel => { settings with logLevel }

def ofText? (text : String) : Option Settings := do
  let document ← Document.ofText? text
  let fields ← document.section? document.root
  let settings ← ({} : Settings).take fields "journal" (ofJournal? document {})
    fun _ settings => settings
  let settings ← settings.take fields "report" (ofReport? document settings)
    fun _ settings => settings
  settings.take fields "logging" (ofLogging? document settings) fun _ settings => settings

/-- The configuration that some settings make, if all values are in range. -/
def check (settings : Settings) : Except ConfigError Config :=
  if places_le : settings.places ≤ 10 then
    if width_pos : 0 < settings.width then
      if isLogLevel_logLevel : isLogLevel settings.logLevel = true then
        .ok { settings with places_le, width_pos, isLogLevel_logLevel }
      else .error (.invalidValue "logging.level"
        ("Log level must be one of: " ++ ", ".intercalate logLevels))
    else .error (.invalidValue "report.amount_width" "Amount width must be greater than 0")
  else .error (.invalidValue "report.decimal_places" "Decimal places must be between 0 and 10")

end Settings

namespace Config

def ofText (text : String) : Except ConfigError Config :=
  match Settings.ofText? text with
  | none => .error .invalidYaml
  | some settings => settings.check

def seenFrom (dir : String) (config : Config) : Config :=
  { config with
    files := config.files.map (Path.join dir)
    priceFile := config.priceFile.map (Path.join dir) }

/-- The configuration in a file. The files that it names are seen from its directory. -/
def ofFile (fs : FileSystem) (path : String) : Except ConfigError Config := do
  if (fs.entryOf? path).isNone then throw (.notFound path)
  let text ← (fs.readText path).mapError fun _ => .unreadable
  return (← ofText text).seenFrom ((Path.parent? path).getD ".")

/-- The sort terms, which are written with commas between them. -/
def sortTerms (config : Config) : List String :=
  match config.sort with
  | none => []
  | some text => ((text.toList.splitOn ',').map fun term => String.ofList (Text.trim term)).filter
      fun term => !term.isEmpty

def hasJournal (config : Config) : Bool := !config.files.isEmpty

/-- A configuration to start from, with all defaults. -/
def template : String :=
  "\n".intercalate
    ["# ledgerite configuration",
      "",
      "journal:",
      "  # Journal files, read in order. Relative paths are relative to this file.",
      "  files: []",
      "  # Optional price database, read before the journal files",
      "  price_db: null",
      "",
      "report:",
      "  # Sort terms for register/print, e.g. \"d\" or \"-date\"",
      "  sort: null",
      "  # Decimal places shown for amounts",
      "  decimal_places: 2",
      "  # Column width amounts are right-aligned to",
      "  amount_width: 20",
      "",
      "logging:",
      "  # off, error, warn, info, debug, trace",
      "  level: warn",
      ""]

end Config

end DoubleEntry

/-! Command lines: options, a command, and the words of a filter. -/

namespace DoubleEntry

/-- The options that take a value. -/
inductive OptionName where
  | config
  | file
  | priceFile
  | sort
  deriving DecidableEq

def OptionName.text : OptionName → String
  | config => "--config"
  | file => "--file"
  | priceFile => "--price-db"
  | sort => "--sort"

/-- Why a command line cannot be read. -/
inductive UsageError where
  | unexpected (argument : String)
  | missingValue (option : OptionName)
  | emptyPath (option : OptionName)
  | repeated (option : OptionName)
  | unknownCommand (name : String)
  | missingCommand
  deriving DecidableEq

def UsageError.message : UsageError → String
  | unexpected argument => s!"unexpected argument '{argument}' found"
  | missingValue option => s!"a value is required for '{option.text}' but none was supplied"
  | emptyPath option => s!"the value of '{option.text}' must not be empty"
  | repeated option => s!"the argument '{option.text}' cannot be used multiple times"
  | unknownCommand name => s!"unrecognized subcommand '{name}'"
  | missingCommand => "a subcommand is required"

/-- What to do with the journals. -/
inductive Command where
  | balance (filter : List String)
  | register (filter : List String)
  | print (filter : List String)
  | defaultConfig
  deriving DecidableEq

/-- The options of a command line. -/
structure Options where
  config : Option String := none
  files : List String := []
  priceFile : Option String := none
  sort : Option String := none
  deriving DecidableEq

/-- What a command line asks for. -/
inductive Request where
  | run (options : Options) (command : Command)
  | version
  | help
  deriving DecidableEq

/-- A single argument, as it reads in front of the command. -/
inductive Argument where
  | option (name : OptionName) (value : Option String)
  | version
  | help
  | separator
  | unknown
  | word
  deriving DecidableEq

namespace Argument

/-- Reads a long option behind its hyphens; a value follows an equals sign. -/
def ofLong (text : List Char) : Argument :=
  let name := text.takeWhile (· != '=')
  let value := if name.length < text.length then some (String.ofList (text.drop (name.length + 1)))
    else none
  match String.ofList name, value with
  | "config", value => .option .config value
  | "file", value => .option .file value
  | "price-db", value => .option .priceFile value
  | "sort", value => .option .sort value
  | "version", none => .version
  | "help", none => .help
  | _, _ => .unknown

/-- Reads a short option behind its hyphen; a value may follow at once, or an equals sign. -/
def ofShort (letter : Char) (rest : List Char) : Argument :=
  let value := match rest with
    | [] => none
    | '=' :: value => some (String.ofList value)
    | value => some (String.ofList value)
  match letter with
  | 'c' => .option .config value
  | 'f' => .option .file value
  | 'S' => .option .sort value
  | 'V' => .version
  | 'h' => .help
  | _ => .unknown

/-- Reads an argument. A single hyphen is a word. -/
def ofText (text : String) : Argument :=
  match text.toList with
  | ['-', '-'] => .separator
  | '-' :: '-' :: long => ofLong long
  | '-' :: letter :: rest => ofShort letter rest
  | _ => .word

end Argument

namespace Options

/-- Takes up an option. Only files can be given several times, and paths are not empty. -/
def set (options : Options) (name : OptionName) (value : String) : Except UsageError Options :=
  match name with
  | .config =>
    if value.isEmpty then .error (.emptyPath name)
    else if options.config.isSome then .error (.repeated name)
    else .ok { options with config := some value }
  | .file =>
    if value.isEmpty then .error (.emptyPath name)
    else .ok { options with files := options.files ++ [value] }
  | .priceFile =>
    if value.isEmpty then .error (.emptyPath name)
    else if options.priceFile.isSome then .error (.repeated name)
    else .ok { options with priceFile := some value }
  | .sort =>
    if options.sort.isSome then .error (.repeated name)
    else .ok { options with sort := some value }

end Options

namespace Request

/-- Reads the words behind a command; none if they ask for help. Behind a separator everything is a
word. -/
def readWords : List String → Except UsageError (Option (List String))
  | [] => .ok (some [])
  | text :: rest =>
    match Argument.ofText text with
    | .word => do return (← readWords rest).map (text :: ·)
    | .separator => .ok (some rest)
    | .help => .ok none
    | _ => .error (.unexpected text)

/-- Reads what follows a command that takes no words; none if it asks for help. -/
def readNothing : List String → Except UsageError (Option Unit)
  | [] => .ok (some ())
  | text :: rest =>
    match Argument.ofText text, rest with
    | .help, _ => .ok none
    | .separator, [] => .ok (some ())
    | .separator, text :: _ => .error (.unexpected text)
    | _, _ => .error (.unexpected text)

def commandNames : List String :=
  ["balance", "bal", "register", "reg", "r", "print", "default-config", "help"]

/-- Reads a command by its name, with the arguments behind it. -/
def readCommand (options : Options) (name : String) (rest : List String) :
    Except UsageError Request :=
  let filtered (command : List String → Command) : Except UsageError Request := do
    match ← readWords rest with
    | some words => return .run options (command words)
    | none => return .help
  match name with
  | "balance" | "bal" => filtered .balance
  | "register" | "reg" | "r" => filtered .register
  | "print" => filtered .print
  | "default-config" => do
    match ← readNothing rest with
    | some () => return .run options .defaultConfig
    | none => return .help
  | "help" =>
    match rest with
    | [] => .ok .help
    | [topic] => if commandNames.contains topic then .ok .help else .error (.unknownCommand topic)
    | _ :: text :: _ => .error (.unknownCommand text)
  | name => .error (.unknownCommand name)

/-- Reads options up to the command, and the command. -/
def readFrom (options : Options) : List String → Except UsageError Request
  | [] => .error .missingCommand
  | text :: rest =>
    match Argument.ofText text with
    | .option name (some value) => do readFrom (← options.set name value) rest
    | .option name none =>
      match rest with
      | [] => .error (.missingValue name)
      | value :: rest =>
        if Argument.ofText value == .word then do readFrom (← options.set name value) rest
        else .error (.missingValue name)
    | .version => .ok .version
    | .help => .ok .help
    | .separator | .unknown => .error (.unexpected text)
    | .word => readCommand options text rest

def ofArguments (arguments : List String) : Except UsageError Request := readFrom {} arguments

end Request

end DoubleEntry

import DoubleEntry.Amount

/-! What can be wrong with a journal, and at which line. -/

namespace DoubleEntry

/-- A line of a source, counted from one. -/
structure Location where
  source : String
  line : Nat
  deriving DecidableEq

def Location.text (location : Location) : String := s!"{location.source}:{location.line}"

/-- Why a file cannot be read. -/
inductive FileFault where
  | notFound
  | notDirectory
  | isDirectory
  | notText
  | badPattern
  deriving DecidableEq

/-- The reason in the words of the operating system. -/
def FileFault.message : FileFault → String
  | notFound => "No such file or directory (os error 2)"
  | notDirectory => "Not a directory (os error 20)"
  | isDirectory => "Is a directory (os error 21)"
  | notText => "stream did not contain valid UTF-8"
  | badPattern => "invalid pattern"

/-- Directives that need something after their keyword. -/
inductive Keyword where
  | includeFile
  | price
  | ignoreSymbol
  | defaultCommodity
  deriving DecidableEq

def Keyword.name : Keyword → String
  | includeFile => "include"
  | price => "price"
  | ignoreSymbol => "ignore symbol"
  | defaultCommodity => "default commodity"

inductive ParseFault where
  | malformedAmount (fragment : String) (reason : AmountFault)
  | unrecognizedDirective (first : Char)
  | unexpectedPosting
  | invalidDate (value : String)
  | incompleteDirective (keyword : Keyword)
  | includeCycle (path : String) (openPaths : List String)
  | unreadable (path : String) (reason : FileFault)
  deriving DecidableEq

def ParseFault.message : ParseFault → String
  | malformedAmount fragment reason => s!"Malformed amount '{fragment}': {reason.message}"
  | unrecognizedDirective first => s!"Unrecognized directive '{first}'"
  | unexpectedPosting => "Posting found outside of a transaction"
  | invalidDate value => s!"Invalid date: {value}"
  | incompleteDirective keyword => s!"Incomplete {keyword.name} directive"
  | includeCycle path openPaths =>
    "Include cycle detected: " ++ " -> ".intercalate (openPaths ++ [path])
  | unreadable path _ => s!"IO error reading {path}"

/-- A fault and the line it is on, where that is known. -/
structure ParseError where
  fault : ParseFault
  location : Option Location := none
  deriving DecidableEq

namespace ParseError

/-- Puts an error on a line unless it has one already. -/
def on (error : ParseError) (location : Location) : ParseError :=
  { error with location := error.location.or (some location) }

def message (error : ParseError) : String :=
  match error.location with
  | some location => s!"{location.text}: {error.fault.message}"
  | none => error.fault.message

/-- The message followed by what the operating system says of a file, where no line is known. -/
def chain (error : ParseError) : String :=
  match error.location, error.fault with
  | none, .unreadable _ reason => s!"{error.message}: {reason.message}"
  | _, _ => error.message

end ParseError

end DoubleEntry

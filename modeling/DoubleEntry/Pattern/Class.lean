import DoubleEntry.Text.Digit
import DoubleEntry.Unicode.CaseFold
import DoubleEntry.Unicode.Property

/-! Classes of characters in patterns, and conditions on a position. -/

namespace DoubleEntry.Pattern

/-- What is set for a part of a pattern by letters such as `(?i)`. -/
structure Flags where
  ignoreCase : Bool := false
  multiLine : Bool := false
  dotAll : Bool := false
  returnFeed : Bool := false
  unicode : Bool := true
  verbose : Bool := false

/-- Whether a class holds of a character. -/
abbrev Holds := Char → Bool

def isAscii (c : Char) : Bool := c.toNat < 128

/-- The characters that differ from those of a class in case only. -/
def Flags.fold (flags : Flags) (holds : Holds) : Holds :=
  if flags.ignoreCase then
    fun c => ((Unicode.caseVariants c).filter fun d => flags.unicode || isAscii d).any holds
  else holds

def Flags.letterClass? (flags : Flags) (letter : Char) : Option Holds :=
  let limit (holds : Holds) : Holds := fun c => holds c && (flags.unicode || isAscii c)
  match letter with
  | 'd' => some (limit Text.isDecimalDigit)
  | 's' => some (limit Text.isBlank)
  | 'w' => some (limit Unicode.isWord)
  | _ => none

/-- The classes that are written by name inside brackets, as in `[:alpha:]`. -/
def namedClass? (name : String) : Option Holds :=
  let graph : Holds := fun c => '!' ≤ c && c ≤ '~'
  match name with
  | "alnum" => some Char.isAlphanum
  | "alpha" => some Char.isAlpha
  | "ascii" => some isAscii
  | "blank" => some fun c => c == '\t' || c == ' '
  | "cntrl" => some fun c => c.toNat < 32 || c.toNat == 127
  | "digit" => some Char.isDigit
  | "graph" => some graph
  | "lower" => some Char.isLower
  | "print" => some fun c => graph c || c == ' '
  | "punct" => some fun c => graph c && !c.isAlphanum
  | "space" => some fun c => c == ' ' || (9 ≤ c.toNat && c.toNat ≤ 13)
  | "upper" => some Char.isUpper
  | "word" => some fun c => c.isAlphanum || c == '_'
  | "xdigit" => some fun c => c.isDigit || ('a' ≤ c && c ≤ 'f') || ('A' ≤ c && c ≤ 'F')
  | _ => none

/-- A name in lower case, without blanks, hyphens and underlines, and without `is` in front. -/
def looseName (name : List Char) : String :=
  let kept := (name.filter fun c => c != ' ' && c != '_' && c != '-').map Char.toLower
  match kept with
  | 'i' :: 's' :: rest => if rest == ['c'] then "isc" else String.ofList rest
  | _ => String.ofList kept

/-- The class of a property: `Lu`, `Greek`, `sc=Greek`, `gc!=L`. -/
def property? (name : List Char) : Option Holds :=
  let valued (negated : Bool) (key value : List Char) : Option Holds :=
    let found := match looseName key with
      | "generalcategory" | "gc" =>
        (Unicode.categoryNamed? (looseName value)).map Unicode.inCategory
      | "script" | "sc" | "scriptextensions" | "scx" => Unicode.scriptNamed? (looseName value)
      | _ => none
    found.map fun holds c => holds c != negated
  let marked := name.zip (name.drop 1 ++ [' '])
  match marked.findIdx? (· == ('!', '=')) with
  | some index => valued true (name.take index) (name.drop (index + 2))
  | none =>
    match (name.findIdx? (· == ':')).or (name.findIdx? (· == '=')) with
    | some index => valued false (name.take index) (name.drop (index + 1))
    | none =>
      let name := looseName name
      (Unicode.propertyNamed? name).or (Unicode.scriptNamed? name)

/-! Conditions on a position. -/

/-- The start of the text, or of a line. -/
def Flags.atStart (flags : Flags) (previous next : Option Char) : Bool :=
  previous.isNone || flags.multiLine && (previous == some '\n' ||
    flags.returnFeed && previous == some '\r' && next != some '\n')

/-- The end of the text, or of a line. -/
def Flags.atEnd (flags : Flags) (previous next : Option Char) : Bool :=
  next.isNone || flags.multiLine && (
    if flags.returnFeed then next == some '\r' || (next == some '\n' && previous != some '\r')
    else next == some '\n')

/-- Whether a position has a character of a word on one of its sides. -/
def Flags.wordAt (flags : Flags) (side : Option Char) : Bool :=
  side.any fun c => if flags.unicode then Unicode.isWord c else isAscii c && Unicode.isWord c

/-- The conditions of `\b` with a name in braces. -/
def Flags.boundary? (flags : Flags) (name : String) :
    Option (Option Char → Option Char → Bool) :=
  match name with
  | "" => some fun previous next => flags.wordAt previous != flags.wordAt next
  | "start" => some fun previous next => !flags.wordAt previous && flags.wordAt next
  | "end" => some fun previous next => flags.wordAt previous && !flags.wordAt next
  | "start-half" => some fun previous _ => !flags.wordAt previous
  | "end-half" => some fun _ next => !flags.wordAt next
  | _ => none

end DoubleEntry.Pattern

import DoubleEntry.Commodity
import DoubleEntry.Text.Digit

/-! Amounts as they are written in a journal: `-$1,000.50`, `-10 BTC`, `42`. The number is read
exactly or not at all. -/

namespace DoubleEntry

/-- Why a text is no amount. -/
inductive AmountFault where
  | shape
  | twoSigns
  | twoCommodities
  | notANumber
  | notExact
  deriving DecidableEq

def AmountFault.message : AmountFault → String
  | shape => "expected [-][symbol]number[symbol]"
  | twoSigns => "more than one sign"
  | twoCommodities => "both a prefix and a suffix commodity"
  | notANumber => "invalid number"
  | notExact => "number cannot be represented exactly"

/-- A number and the commodity written beside it, if any. -/
structure Amount where
  number : Decimal
  commodity : Option Commodity
  deriving DecidableEq

namespace Amount

/-- A character of a number: a digit of any script, a point or a comma. -/
def isNumeric (c : Char) : Bool := Text.isDecimalDigit c || c == '.' || c == ','

/-- The parts of an amount in the order in which they are written. -/
structure Parts where
  outerSign : Bool
  leading : List Char
  innerSign : Bool
  number : List Char
  trailing : List Char

def takeSign : List Char → Bool × List Char
  | '-' :: rest => (true, rest)
  | text => (false, text)

/-- Cuts `[-][symbol][-]number[symbol]` into its parts. The number is not empty, and the symbol
after it has no numeric character. -/
def Parts.ofText? (text : List Char) : Option Parts :=
  let (outerSign, text) := takeSign text
  let isLeading := fun c => !isNumeric c && c != '-'
  let (innerSign, rest) := takeSign (text.dropWhile isLeading)
  let number := rest.takeWhile isNumeric
  let trailing := rest.dropWhile isNumeric
  if number.isEmpty || trailing.any isNumeric then none
  else some ⟨outerSign, text.takeWhile isLeading, innerSign, number, trailing⟩

/-- A number without the zeros at the end of its fraction, and without a point that ends it then. -/
def significantDigits (number : List Char) : List Char :=
  if number.contains '.' then
    let kept := (number.reverse.dropWhile (· == '0')).dropWhile (· == '.')
    if kept.isEmpty then ['0'] else kept.reverse
  else number

/-- The value of a number without commas. Zeros at the end of the fraction count for the scale
unless the number fits only without them. -/
def readNumber? (number : List Char) : Option Decimal :=
  (Decimal.ofUnsigned? number).or (Decimal.ofUnsigned? (significantDigits number))

/-- The commodity of the symbols around a number. -/
def Parts.commodity (parts : Parts) : Option Commodity :=
  if !parts.leading.isEmpty then some ⟨String.ofList parts.leading, true⟩
  else if !parts.trailing.isEmpty then some ⟨String.ofList parts.trailing, false⟩
  else none

def ofTrimmed (text : List Char) : Except AmountFault Amount :=
  match Parts.ofText? text with
  | none => .error .shape
  | some parts =>
    if parts.outerSign && parts.innerSign then .error .twoSigns
    else if !parts.leading.isEmpty && !parts.trailing.isEmpty then .error .twoCommodities
    else
      let number := parts.number.filter (· != ',')
      if 1 < number.count '.' || !number.any Char.isDigit then .error .notANumber
      else
        match readNumber? number with
        | none => .error .notExact
        | some magnitude =>
          let signed := if parts.outerSign || parts.innerSign then -magnitude else magnitude
          .ok ⟨signed, parts.commodity⟩

def ofText (text : List Char) : Except AmountFault Amount := ofTrimmed (Text.trim text)

end Amount

end DoubleEntry

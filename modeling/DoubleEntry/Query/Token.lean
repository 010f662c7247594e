import DoubleEntry.Text.Blank

/-! The words of a filter: parentheses, operators, and terms, which are patterns. -/

namespace DoubleEntry.Query

/-- What combines terms. The payee operator has a word and a sign. -/
inductive Operator where
  | and
  | or
  | not
  | payee
  | payeeSign
  deriving DecidableEq

namespace Operator

def text : Operator → String
  | and => "and"
  | or => "or"
  | not => "not"
  | payee => "payee"
  | payeeSign => "@"

def ofText? (word : String) : Option Operator :=
  match word with
  | "and" => some and
  | "or" => some or
  | "not" => some not
  | "payee" => some payee
  | "@" => some payeeSign
  | _ => none

/-- Whether an operator stands in front of its only operand. -/
def isUnary : Operator → Bool
  | and | or => false
  | not | payee | payeeSign => true

/-- How tightly an operator binds. -/
def precedence (operator : Operator) : Nat := if operator.isUnary then 2 else 1

end Operator

/-- A word of a filter. -/
inductive Token where
  | opening
  | closing
  | operator (operator : Operator)
  | term (text : String)
  deriving DecidableEq

namespace Token

def text : Token → String
  | opening => "("
  | closing => ")"
  | operator op => op.text
  | term text => text

def ofWord (word : String) : Token :=
  match word with
  | "(" => opening
  | ")" => closing
  | word =>
    match Operator.ofText? word with
    | some op => operator op
    | none => term word

def isSign (c : Char) : Bool := c == '(' || c == ')' || c == '@'

/-- The run of plain characters that a text starts with, and the words behind it. -/
def splitRun : List Char → List Char × List (List Char)
  | [] => ([], [])
  | c :: rest =>
    let (run, later) := splitRun rest
    let behind := if run.isEmpty then later else run :: later
    if isSign c then ([], [c] :: behind)
    else if Text.isBlank c then ([], behind)
    else (c :: run, later)

/-- The words of a filter: parentheses and at signs stand alone, all else is split at blanks. -/
def wordsOf (filter : List Char) : List (List Char) :=
  let (run, later) := splitRun filter
  if run.isEmpty then later else run :: later

def ofFilter (filter : String) : List Token :=
  (wordsOf filter.toList).map fun word => ofWord (String.ofList word)

end Token

end DoubleEntry.Query

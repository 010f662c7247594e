import DoubleEntry.Query.Basic
import DoubleEntry.Query.Postfix

/-! Filters: queries as they are written on a command line, such as
`Expense and not (payee Joe or Favor)`. -/

namespace DoubleEntry

/-- Why a filter has no meaning. -/
inductive FilterError where
  | unbalancedParens (filter : String)
  | malformed (reason : String)
  | invalidPayeeOperand (operand : String)
  | invalidPattern (pattern reason : String)
  deriving DecidableEq

def FilterError.message : FilterError → String
  | unbalancedParens filter => s!"Unbalanced parentheses in '{filter}'"
  | malformed reason => s!"Malformed expression: {reason}"
  | invalidPayeeOperand operand => s!"payee expects a plain pattern, got '{operand}'"
  | invalidPattern pattern reason => s!"Invalid pattern '{pattern}': {reason}"

namespace Query

variable [PatternEngine]

/-- The matcher of a pattern, with the pattern in the error. -/
def matcher (pattern : String) : Except FilterError Matcher :=
  (Matcher.ofText pattern).mapError (.invalidPattern pattern)

/-- The postfix order of a filter. -/
def postfixOf (filter : String) : Except FilterError (List Postfix) :=
  match Postfix.ofTokens? (Token.ofFilter filter) with
  | some elements => .ok elements
  | none => .error (.unbalancedParens filter)

def popOperand (operator : Operator) : List Query → Except FilterError (Query × List Query)
  | [] => .error (.malformed s!"'{operator.text}' is missing an operand")
  | operand :: rest => .ok (operand, rest)

/-- Applies an operator to the operands that were completed last, the last one first. -/
def applyOperator (operator : Operator) (operands : List Query) :
    Except FilterError (List Query) := do
  let (last, rest) ← popOperand operator operands
  match operator with
  | .and =>
    let (first, rest) ← popOperand operator rest
    return .both [first, last] :: rest
  | .or =>
    let (first, rest) ← popOperand operator rest
    return .either [first, last] :: rest
  | .not => return .not last :: rest
  | .payee | .payeeSign =>
    match last with
    | .account matcher => return .payee matcher :: rest
    | other => throw (.invalidPayeeOperand other.text)

/-- Takes up an element in postfix order, the operands being those that are complete, last first. -/
def takeElement (operands : List Query) : Postfix → Except FilterError (List Query)
  | .operator operator => applyOperator operator operands
  | .term text => do return .account (← matcher text) :: operands

def ofPostfix (elements : List Postfix) : Except FilterError Query := do
  match ← elements.foldlM takeElement [] with
  | [query] => return query
  | [] => throw (.malformed "empty expression")
  | operands => throw (.malformed s!"{operands.length} operands left without an operator")

def ofFilter (filter : String) : Except FilterError Query := do ofPostfix (← postfixOf filter)

/-- The query of the words of a command line; without words it selects everything. -/
def ofWords (words : List String) : Except FilterError Query :=
  if words.isEmpty then .ok .all else ofFilter (" ".intercalate words)

end Query

end DoubleEntry

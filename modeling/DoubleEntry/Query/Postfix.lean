import DoubleEntry.Query.Token

/-! Filters in postfix order, where an operator follows its operands and parentheses are not needed.
Of two terms without an operator between them, either may match. -/

namespace DoubleEntry.Query

/-- An element of a filter in postfix order. -/
inductive Postfix where
  | operator (operator : Operator)
  | term (text : String)
  deriving DecidableEq

namespace Postfix

def text : Postfix → String
  | operator op => op.text
  | term text => text

def ofWord (word : String) : Postfix :=
  match Operator.ofText? word with
  | some op => operator op
  | none => term word

/-- What waits until its operands are complete. -/
inductive Waiting where
  | opening
  | operator (operator : Operator)
  deriving DecidableEq

/-- Whether an operator that waits applies before one that comes. A unary operator lets those pass
that bind tighter, a binary one also those that bind equally. -/
def appliesBefore (waiting coming : Operator) : Bool :=
  if coming.isUnary then coming.precedence < waiting.precedence
  else coming.precedence ≤ waiting.precedence

/-- The waiting operators that apply before one that comes, and those that keep waiting. -/
def release (coming : Operator) : List Waiting → List Postfix × List Waiting
  | .operator waiting :: rest =>
    if appliesBefore waiting coming then
      let (released, kept) := release coming rest
      (.operator waiting :: released, kept)
    else ([], .operator waiting :: rest)
  | waiting => ([], waiting)

/-- The operators that wait since the last opening parenthesis, and those in front of it. -/
def unwind? : List Waiting → Option (List Postfix × List Waiting)
  | [] => none
  | .opening :: rest => some ([], rest)
  | .operator waiting :: rest => do
    let (released, kept) ← unwind? rest
    return (.operator waiting :: released, kept)

/-- The operators that wait at the end; none if a parenthesis is open. -/
def drain? : List Waiting → Option (List Postfix)
  | [] => some []
  | .opening :: _ => none
  | .operator waiting :: rest => do
    let released ← drain? rest
    return .operator waiting :: released

/-- The output so far, what waits, and whether the last token ended an operand. -/
structure State where
  output : List Postfix := []
  waiting : List Waiting := []
  afterOperand : Bool := false

def State.push (state : State) (op : Operator) : State :=
  let (released, kept) := release op state.waiting
  { state with output := state.output ++ released, waiting := .operator op :: kept }

/-- Puts an `or` behind an operand. -/
def State.join (state : State) : State := if state.afterOperand then state.push .or else state

/-- Takes up a token; fails on a closing parenthesis that none opens. -/
def State.step (state : State) (token : Token) : Option State :=
  match token with
  | .opening =>
    let state := state.join
    some { state with waiting := .opening :: state.waiting, afterOperand := false }
  | .closing => do
    let (released, kept) ← unwind? state.waiting
    return { output := state.output ++ released, waiting := kept, afterOperand := true }
  | .operator op => some { state.push op with afterOperand := false }
  | .term text =>
    let state := state.join
    some { state with output := state.output ++ [.term text], afterOperand := true }

/-- The postfix order of a filter; none if its parentheses are not balanced. -/
def ofTokens? (tokens : List Token) : Option (List Postfix) := do
  let state ← tokens.foldlM State.step ({} : State)
  let released ← drain? state.waiting
  return state.output ++ released

end Postfix

end DoubleEntry.Query

import DoubleEntry.Pattern.Escape

/-! Classes of characters in brackets: characters, ranges, classes by name, brackets within
brackets, and the set operators `&&`, `--` and `~~`. -/

namespace DoubleEntry.Pattern

/-- Operators between sets; all bind equally and to the left. -/
inductive SetOperator where
  | intersection
  | difference
  | symmetricDifference

def SetOperator.apply : SetOperator → Holds → Holds → Holds
  | intersection, left, right => fun c => left c && right c
  | difference, left, right => fun c => left c && !right c
  | symmetricDifference, left, right => fun c => left c != right c

/-- A bracket that is still open. `depth` bounds how deep its items are nested. -/
structure Bracket where
  negated : Bool
  items : Nat := 0
  depth : Nat := 0
  holds : Holds := fun _ => false
  left : Option (SetOperator × Holds × Nat) := none

namespace Bracket

def add (bracket : Bracket) (holds : Holds) (depth : Nat := 0) : Bracket :=
  { bracket with
    items := bracket.items + 1
    depth := max bracket.depth depth
    holds := fun c => bracket.holds c || holds c }

/-- The set up to here: what the operator in front of the last items makes of them. -/
def operand (flags : Flags) (bracket : Bracket) : Holds × Nat :=
  let depth := if 1 < bracket.items then bracket.depth + 1 else bracket.depth
  match bracket.left with
  | none => (bracket.holds, depth)
  | some (operator, left, leftDepth) =>
    (operator.apply (flags.fold left) (flags.fold bracket.holds), max leftDepth depth + 1)

/-- Starts the right side of an operator. -/
def operate (flags : Flags) (bracket : Bracket) (operator : SetOperator) : Bracket :=
  let (holds, depth) := bracket.operand flags
  { negated := bracket.negated, left := some (operator, holds, depth) }

/-- The class that the bracket stands for when it is closed. -/
def close (flags : Flags) (bracket : Bracket) : Holds × Nat :=
  let (holds, depth) := bracket.operand flags
  let folded := flags.fold holds
  (fun c => folded c != bracket.negated, depth + 1)

end Bracket

/-- Takes hyphens at the start of a bracket, which stand for themselves. -/
def takeHyphens (flags : Flags) : (fuel : Nat) → Bracket → List Char → Bracket × List Char
  | 0, bracket, text => (bracket, text)
  | fuel + 1, bracket, text =>
    match text with
    | '-' :: rest => takeHyphens flags fuel (bracket.add (· == '-')) (flags.skip rest)
    | text => (bracket, text)

/-- Reads the start of a bracket, behind `[`. A closing bracket at the start stands for itself. -/
def openBracket (flags : Flags) (text : List Char) : Option (Bracket × List Char) :=
  let (negated, text) := match flags.skip text with
    | '^' :: rest => (true, flags.skip rest)
    | text => (false, text)
  let (bracket, text) := takeHyphens flags text.length { negated } text
  match text with
  | [] => none
  | ']' :: rest => if bracket.items == 0 then some (bracket.add (· == ']'), flags.skip rest)
      else some (bracket, text)
  | text => some (bracket, text)

def readNamedClass (text : List Char) : Option (Holds × List Char) :=
  match text with
  | ':' :: rest =>
    let (negated, rest) := match rest with
      | '^' :: rest => (true, rest)
      | rest => (false, rest)
    let (name, rest) := rest.span (· != ':')
    match rest with
    | ':' :: ']' :: rest =>
      (namedClass? (String.ofList name)).map fun holds => (fun c => holds c != negated, rest)
    | _ => none
  | _ => none

def readMember (flags : Flags) : List Char → Option (Atom × List Char)
  | [] => none
  | '\\' :: rest => readEscape flags rest
  | c :: rest => some (.literal c, rest)

/-- Reads a range, or a single member of a bracket. -/
def readRange (flags : Flags) (text : List Char) : Option (Holds × List Char) := do
  let (first, rest) ← readMember flags text
  let rest := flags.skip rest
  let single : Option (Holds × List Char) := match first with
    | .literal c => some ((· == c), rest)
    | .charClass holds => some (holds, rest)
    | .condition _ => none
  match rest with
  | [] => none
  | '-' :: behind =>
    let behind := flags.skip behind
    match behind with
    | ']' :: _ | '-' :: _ => single
    | _ =>
      let (last, rest) ← readMember flags behind
      match first, last with
      | .literal low, .literal high =>
        if low ≤ high then some (fun c => low ≤ c && c ≤ high, rest) else none
      | _, _ => none
  | _ => single

/-- Reads a bracket to its end, with the brackets around it that are open. -/
def readBracketBody (flags : Flags) :
    (fuel : Nat) → Bracket → (outer : List Bracket) → List Char → Option ((Holds × Nat) × List Char)
  | 0, _, _, _ => none
  | fuel + 1, bracket, outer, text =>
    match flags.skip text with
    | [] => none
    | '[' :: rest =>
      match readNamedClass rest with
      | some (holds, rest) => readBracketBody flags fuel (bracket.add holds) outer rest
      | none => do
        let (inner, rest) ← openBracket flags rest
        readBracketBody flags fuel inner (bracket :: outer) rest
    | ']' :: rest =>
      let (holds, depth) := bracket.close flags
      match outer with
      | [] => some ((holds, depth), rest)
      | around :: outer => readBracketBody flags fuel (around.add holds depth) outer rest
    | '&' :: '&' :: rest =>
      readBracketBody flags fuel (bracket.operate flags .intersection) outer rest
    | '-' :: '-' :: rest =>
      readBracketBody flags fuel (bracket.operate flags .difference) outer rest
    | '~' :: '~' :: rest =>
      readBracketBody flags fuel (bracket.operate flags .symmetricDifference) outer rest
    | text => do
      let (holds, rest) ← readRange flags text
      readBracketBody flags fuel (bracket.add holds) outer rest

/-- Reads a bracket, behind `[`: its class, and how deep it is nested. Without Unicode it must not
leave ASCII. -/
def readBracket (flags : Flags) (text : List Char) : Option ((Holds × Nat) × List Char) := do
  let (bracket, rest) ← openBracket flags text
  let ((holds, depth), rest) ← readBracketBody flags (text.length + 1) bracket [] rest
  guard (flags.unicode || !bracket.negated)
  return ((holds, depth), rest)

end DoubleEntry.Pattern

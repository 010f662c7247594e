import DoubleEntry.Pattern.Basic
import DoubleEntry.Pattern.Bracket
import DoubleEntry.Pattern.Engine

/-! Reading regular expressions. Groups that are open are kept on a stack; each step reads one
element and leaves a shorter text. -/

namespace DoubleEntry.Pattern

/-- A part of a pattern, how deep it is nested, and its size with repetitions unfolded. -/
structure Part where
  pattern : Pattern
  depth : Nat := 0
  size : Nat := 0

/-- The deepest nesting that is read. -/
def maxDepth : Nat := 250

/-- The largest size of a pattern with its repetitions unfolded. -/
def maxSize : Nat := 327680

/-- A group that is open: the flags behind it, the names of groups, the branches in front of the
last `|`, and the parts since then, each list from the last to the first. Flags set on the way count
as a part that cannot be repeated. -/
structure Group where
  outerFlags : Flags := {}
  branches : List Part := []
  parts : List (Option Part) := []

def Group.branch (group : Group) : Part :=
  let parts := group.parts.reverse.map (·.getD { pattern := .empty })
  match parts with
  | [] => { pattern := .empty }
  | [part] => part
  | part :: rest =>
    rest.foldl (fun whole part =>
      { pattern := .seq whole.pattern part.pattern, depth := max whole.depth (part.depth + 1),
        size := whole.size + part.size }) { part with depth := part.depth + 1 }

def Group.choice (group : Group) : Part :=
  let branches := (group.branch :: group.branches).reverse
  match branches with
  | [] => { pattern := .empty }
  | [branch] => branch
  | branch :: rest =>
    rest.foldl (fun whole branch =>
      { pattern := .alt whole.pattern branch.pattern, depth := max whole.depth (branch.depth + 1),
        size := whole.size + branch.size + 1 }) { branch with depth := branch.depth + 1 }

def Group.add (group : Group) (part : Part) : Group :=
  { group with parts := some part :: group.parts }

/-- What has been read: the innermost group, those around it, the flags in force, and the names of
groups. -/
structure Progress where
  group : Group := {}
  outer : List Group := []
  flags : Flags := {}
  names : List (List Char) := []

def Progress.add (progress : Progress) (part : Part) : Progress :=
  { progress with group := progress.group.add part }

def Atom.part (flags : Flags) : Atom → Part
  | literal c =>
    let variants := Unicode.caseVariants c
    if flags.ignoreCase && 1 < variants.length then
      { pattern := .one (flags.fold (· == c)), size := variants.length }
    else { pattern := .one (· == c), size := c.utf8Size }
  | charClass holds => { pattern := .one holds, size := 100 }
  | condition holds => { pattern := .look holds, size := 1 }

def Progress.repeatLast (progress : Progress) (least : Nat) (most : Option Nat) :
    Option Progress :=
  match progress.group.parts with
  | some part :: before =>
    let times := match most with
      | none => least + 1
      | some most => max most 1
    let repeated : Part :=
      { pattern := .repeated part.pattern least most, depth := part.depth + 1,
        size := (part.size + 1) * times }
    some { progress with group := { progress.group with parts := some repeated :: before } }
  | _ => none

/-- Drops the mark that makes a repetition lazy. -/
def skipLazy : List Char → List Char
  | '?' :: rest => rest
  | text => text

/-- Reads a number; blanks around it have no meaning. -/
def readCount (text : List Char) : Option (Option Nat × List Char) :=
  let text := Text.trimStart text
  let digits := text.takeWhile Char.isDigit
  let rest := Text.trimStart (text.drop digits.length)
  if digits.isEmpty then some (none, rest)
  else
    let count := Nat.ofDigitChars 10 digits 0
    if count < UInt32.size then some (some count, rest) else none

/-- Reads the upper bound of a repetition, behind the lower one: absent after a comma if there is
none, and the lower one itself without a comma. -/
def readUpperBound (flags : Flags) (least : Option Nat) (text : List Char) :
    Option ((Nat × Option Nat) × List Char) :=
  match text with
  | ',' :: rest =>
    match flags.skip rest with
    | '\x7d' :: rest => least.map fun least => ((least, none), '\x7d' :: rest)
    | rest => do
      let (most, rest) ← readCount rest
      return ((← least, some (← most)), rest)
  | rest => least.map fun least => ((least, some least), rest)

/-- Reads the bounds of a repetition, behind the opening brace. -/
def readBounds (flags : Flags) (text : List Char) : Option ((Nat × Option Nat) × List Char) := do
  let (least, rest) ← readCount (flags.skip text)
  let ((least, most), rest) ← readUpperBound flags least rest
  match rest with
  | '\x7d' :: rest =>
    guard (most.all (least ≤ ·))
    return ((least, most), flags.skip rest)
  | _ => none

/-- The flags with the one of a letter switched. -/
def Flags.set? (flags : Flags) (letter : Char) (value : Bool) : Option Flags :=
  match letter with
  | 'i' => some { flags with ignoreCase := value }
  | 'm' => some { flags with multiLine := value }
  | 's' => some { flags with dotAll := value }
  | 'R' => some { flags with returnFeed := value }
  | 'u' => some { flags with unicode := value }
  | 'x' => some { flags with verbose := value }
  | 'U' => some flags
  | _ => none

/-- Reads the letters of flags up to a colon or a closing parenthesis, which is left. Each letter
and the minus sign may occur once, and a letter must follow the minus sign. -/
def readFlags (seen : List Char) (value : Bool) (flags : Flags) :
    List Char → Option (Flags × Bool × List Char)
  | [] => none
  | c :: rest =>
    if c == ':' || c == ')' then
      if seen.head? == some '-' then none else some (flags, !seen.isEmpty, c :: rest)
    else if seen.contains c then none
    else if c == '-' then readFlags (c :: seen) false flags rest
    else do readFlags (c :: seen) value (← flags.set? c value) rest

def readGroupName (text : List Char) : Option (List Char × List Char) :=
  let (name, rest) := text.span (· != '>')
  match name, rest with
  | first :: later, _ :: rest =>
    if (first == '_' || Unicode.isAlphabetic first) &&
        later.all (fun c => ['_', '.', '[', ']'].contains c || Unicode.isAlphanumeric c) then
      some (name, rest)
    else none
  | _, _ => none

/-- Starts a group whose parts have `flags`. -/
def Progress.openGroup (progress : Progress) (flags : Flags) : Progress :=
  { progress with
    group := { outerFlags := progress.flags }
    outer := progress.group :: progress.outer
    flags := flags }

def Progress.openNamed (progress : Progress) (text : List Char) :
    Option (Progress × List Char) := do
  let (name, rest) ← readGroupName text
  guard !(progress.names.contains name)
  let progress := progress.openGroup progress.flags
  return ({ progress with names := name :: progress.names }, rest)

/-- Reads what follows an opening parenthesis. Look-around is not supported. -/
def Progress.readOpening (progress : Progress) (text : List Char) :
    Option (Progress × List Char) :=
  match progress.flags.skip text with
  | '?' :: '=' :: _ | '?' :: '!' :: _ | '?' :: '<' :: '=' :: _ | '?' :: '<' :: '!' :: _ => none
  | '?' :: 'P' :: '<' :: rest | '?' :: '<' :: rest => progress.openNamed rest
  | '?' :: rest => do
    let (flags, any, rest) ← readFlags [] true progress.flags rest
    match rest with
    | ':' :: rest => return (progress.openGroup flags, rest)
    | _ :: rest =>
      guard any
      let group := { progress.group with parts := none :: progress.group.parts }
      return ({ progress with group, flags }, rest)
    | [] => none
  | rest => some (progress.openGroup progress.flags, rest)

def Progress.closeGroup (progress : Progress) : Option Progress :=
  match progress.outer with
  | [] => none
  | around :: outer =>
    let choice := progress.group.choice
    some { progress with
      group := around.add { choice with depth := choice.depth + 1, size := choice.size + 2 }
      outer
      flags := progress.group.outerFlags }

/-- Reads the element that starts with `c`. -/
def Progress.readElement (progress : Progress) (c : Char) (rest : List Char) :
    Option (Progress × List Char) :=
  let flags := progress.flags
  let repeated (least : Nat) (most : Option Nat) : Option (Progress × List Char) :=
    (progress.repeatLast least most).map (·, skipLazy (flags.skip rest))
  match c with
  | '(' => progress.readOpening rest
  | ')' => progress.closeGroup.map (·, rest)
  | '|' =>
    let group := { progress.group with
      branches := progress.group.branch :: progress.group.branches, parts := [] }
    some ({ progress with group }, rest)
  | '[' => do
    let ((holds, depth), rest) ← readBracket flags rest
    return (progress.add { pattern := .one holds, depth := depth + 1, size := 50 }, rest)
  | '?' => repeated 0 (some 1)
  | '*' => repeated 0 none
  | '+' => repeated 1 none
  | '\x7b' => do
    let ((least, most), rest) ← readBounds flags rest
    return (← progress.repeatLast least most, skipLazy rest)
  | '.' => do
    guard flags.unicode
    let holds : Holds := fun c =>
      flags.dotAll || (c != '\n' && !(flags.returnFeed && c == '\r'))
    return (progress.add { pattern := .one holds, size := 12 }, rest)
  | '^' => some (progress.add { pattern := .look flags.atStart, size := 1 }, rest)
  | '$' => some (progress.add { pattern := .look flags.atEnd, size := 1 }, rest)
  | '\\' => do
    let (atom, rest) ← readEscape flags rest
    return (progress.add (atom.part flags), rest)
  | c => some (progress.add ((Atom.literal c).part flags), rest)

def Progress.readAll : (fuel : Nat) → Progress → List Char → Option Progress
  | 0, progress, text => if text.isEmpty then some progress else none
  | fuel + 1, progress, text =>
    match progress.flags.skip text with
    | [] => some progress
    | c :: rest => do
      let (progress, rest) ← progress.readElement c rest
      progress.readAll fuel rest

def ofText (text : String) : Except PatternFault Pattern :=
  let text := text.toList
  match ({} : Progress).readAll text.length text with
  | none => .error .illFormed
  | some progress =>
    let whole := progress.group.choice
    if !progress.outer.isEmpty || maxDepth < whole.depth then .error .illFormed
    else if maxSize < whole.size then .error .tooLarge
    else .ok whole.pattern

/-- How the explanation of a pattern that cannot be read starts. -/
def PatternFault.message : PatternFault → String
  | illFormed => "regex parse error:"
  | tooLarge => "Compiled regex exceeds size limit of 10485760 bytes."

/-- The patterns above as those of queries. There are others: some name more sets of characters, by
their script, and allow more or fewer repetitions. -/
instance : PatternEngine where
  Compiled := Pattern
  compile text := (ofText text).mapError PatternFault.message
  isMatch := isMatch

end DoubleEntry.Pattern

import DoubleEntry.Pattern.Class

/-! What follows a backslash in a pattern. Readers take the front of a text and leave the rest, and
fail where the text is no pattern. -/

namespace DoubleEntry.Pattern

/-- A text that is no pattern: ill-formed, or too large when its repetitions are unfolded. -/
inductive PatternFault where
  | illFormed
  | tooLarge
  deriving DecidableEq

/-- Drops blanks and comments, which run from `#` to the end of the line. -/
def skipVerbose (inComment : Bool) : List Char → List Char
  | [] => []
  | c :: rest =>
    if inComment then skipVerbose (c != '\n') rest
    else if Text.isBlank c then skipVerbose false rest
    else if c == '#' then skipVerbose true rest
    else c :: rest

/-- Drops what has no meaning in front of a text. -/
def Flags.skip (flags : Flags) (text : List Char) : List Char :=
  if flags.verbose then skipVerbose false text else text

/-- What a single element of a pattern stands for. -/
inductive Atom where
  | literal (c : Char)
  | charClass (holds : Holds)
  | condition (holds : Option Char → Option Char → Bool)

/-- Characters with a meaning of their own, which a backslash takes away. -/
def isMeta (c : Char) : Bool :=
  ['\\', '.', '+', '*', '?', '(', ')', '|', '[', ']', '\x7b', '\x7d', '^', '$', '#', '&', '-',
    '~'].contains c

/-- Characters that stand for themselves behind a backslash. -/
def isEscapable (c : Char) : Bool :=
  isMeta c || isAscii c && !c.isAlphanum && c != '<' && c != '>'

def isHexDigit (c : Char) : Bool := c.isDigit || ('a' ≤ c && c ≤ 'f') || ('A' ≤ c && c ≤ 'F')

def hexDigitValue (c : Char) : Nat :=
  if c.isDigit then c.toNat - 48 else if 'a' ≤ c then c.toNat - 87 else c.toNat - 55

def charOfCode? (code : Nat) : Option Char :=
  if code.isValidChar then some (Char.ofNat code) else none

/-- Reads `count` hexadecimal digits behind those whose value is `code`. -/
def readHexDigits (flags : Flags) : (count code : Nat) → List Char → Option (Char × List Char)
  | 0, code, text => (charOfCode? code).map (·, text)
  | count + 1, code, text =>
    match flags.skip text with
    | c :: rest =>
      if isHexDigit c then readHexDigits flags count (code * 16 + hexDigitValue c) rest else none
    | [] => none

def readHexBraces (flags : Flags) (text : List Char) : Option (Char × List Char) :=
  let (inside, rest) := text.span (· != '\x7d')
  let digits := if flags.verbose then inside.filter fun c => !Text.isBlank c else inside
  match rest with
  | [] => none
  | _ :: rest =>
    if digits.isEmpty || !digits.all isHexDigit then none
    else
      let code := digits.foldl (fun code c => min (code * 16 + hexDigitValue c) 0x110000) 0
      (charOfCode? code).map (·, rest)

/-- Reads a character by its code point, behind `x`, `u` or `U`. -/
def readHex (flags : Flags) (digits : Nat) (text : List Char) : Option (Char × List Char) :=
  match flags.skip text with
  | '\x7b' :: rest => readHexBraces flags rest
  | text => readHexDigits flags digits 0 text

/-- Reads the name of a property, behind `p` or `P`: a letter, or any name in braces. -/
def readProperty (flags : Flags) (negated : Bool) (text : List Char) :
    Option (Atom × List Char) := do
  guard flags.unicode
  let (name, rest) ← match flags.skip text with
    | '\x7b' :: rest =>
      match rest.span (· != '\x7d') with
      | (inside, _ :: rest) =>
        some (if flags.verbose then inside.filter fun c => !Text.isBlank c else inside, rest)
      | (_, []) => none
    | c :: rest => if c == '\\' then none else some ([c], rest)
    | [] => none
  let holds ← property? name
  let folded := flags.fold holds
  return (.charClass fun c => folded c != negated, rest)

/-- Reads a boundary of words, behind `b`. A brace that no letter follows starts a repetition. -/
def readBoundary (flags : Flags) (text : List Char) : Option (Atom × List Char) :=
  let plain := (flags.boundary? "").map fun holds => (Atom.condition holds, text)
  let isNameChar (c : Char) : Bool := c.isAlpha || c == '-'
  match text with
  | '\x7b' :: rest =>
    let rest := flags.skip rest
    match rest with
    | [] => none
    | c :: _ =>
      if !isNameChar c then plain
      else
        let name := rest.takeWhile fun c => isNameChar c || flags.verbose && Text.isBlank c
        match rest.drop name.length with
        | '\x7d' :: rest =>
          let name := String.ofList (name.filter isNameChar)
          (flags.boundary? name).map fun holds => (.condition holds, rest)
        | _ => none
  | _ => plain

def readEscape (flags : Flags) : List Char → Option (Atom × List Char)
  | [] => none
  | c :: rest =>
    let literal (c : Char) : Option (Atom × List Char) := some (.literal c, rest)
    match c with
    | 'x' => (readHex flags 2 rest).map fun (c, rest) => (.literal c, rest)
    | 'u' => (readHex flags 4 rest).map fun (c, rest) => (.literal c, rest)
    | 'U' => (readHex flags 8 rest).map fun (c, rest) => (.literal c, rest)
    | 'p' => readProperty flags false rest
    | 'P' => readProperty flags true rest
    | 'd' | 's' | 'w' => (flags.letterClass? c).map fun holds => (.charClass holds, rest)
    | 'D' | 'S' | 'W' => do
      guard flags.unicode
      let holds ← flags.letterClass? c.toLower
      return (.charClass fun c => !holds c, rest)
    | 'a' => literal '\x07'
    | 'f' => literal '\x0c'
    | 't' => literal '\t'
    | 'n' => literal '\n'
    | 'r' => literal '\r'
    | 'v' => literal '\x0b'
    | 'A' => some (.condition fun previous _ => previous.isNone, rest)
    | 'z' => some (.condition fun _ next => next.isNone, rest)
    | 'b' => readBoundary flags rest
    | 'B' => (flags.boundary? "").map fun holds =>
        (.condition fun previous next => !holds previous next, rest)
    | '<' => (flags.boundary? "start").map fun holds => (.condition holds, rest)
    | '>' => (flags.boundary? "end").map fun holds => (.condition holds, rest)
    | c => if isEscapable c then literal c else none

end DoubleEntry.Pattern

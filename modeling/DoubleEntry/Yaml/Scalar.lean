import DoubleEntry.Yaml.Cursor

/-! Scalars within lines: plain ones, and ones between quotes. Where such a scalar goes over several
lines, the line breaks between two words are folded. -/

namespace DoubleEntry.Yaml

inductive ScalarStyle where
  | plain
  | singleQuoted
  | doubleQuoted
  | literal
  | folded
  deriving DecidableEq, Repr

/-- What stands between two words of a scalar: the blanks up to the first line break, and the
breaks. An escaped gap begins with a line break that was escaped. -/
structure Gap where
  escaped : Bool := false
  blanks : List Char := []
  breaks : List Char := []

namespace Gap

def isFolded (gap : Gap) : Bool := gap.escaped || !gap.breaks.isEmpty

/-- The text that the gap stands for. A single line feed becomes a blank; the first of several is
dropped. -/
def folded (gap : Gap) : List Char :=
  if gap.escaped then gap.breaks
  else match gap.breaks with
    | [] => gap.blanks
    | ['\n'] => [' ']
    | '\n' :: more => more
    | breaks => breaks

/-- Reads the rest of a gap. From the second line on, no tab may stand in front of `leastColumn`. -/
def read (leastColumn : Nat) : (fuel : Nat) → Gap → Cursor → Option (Gap × Cursor)
  | 0, gap, cursor => some (gap, cursor)
  | fuel + 1, gap, cursor =>
    match cursor.text with
    | [] => some (gap, cursor)
    | c :: _ =>
      if isBreak c then read leastColumn fuel { gap with breaks := gap.breaks ++ [c] } cursor.next
      else if !isSpace c then some (gap, cursor)
      else if !gap.isFolded then
        read leastColumn fuel { gap with blanks := gap.blanks ++ [c] } cursor.next
      else if c == '\t' && cursor.column < leastColumn then none
      else read leastColumn fuel gap cursor.next

end Gap

/-- Characters with a meaning of their own inside brackets and braces. -/
def isFlowMark (c : Char) : Bool := ",[]\x7b\x7d".contains c

/-- A word of a plain scalar. A colon ends it in front of a gap, and may not stand in front of a
mark inside brackets. -/
def plainWord (inFlow : Bool) : List Char → Option (List Char)
  | [] => some []
  | c :: rest =>
    if isGap c then some []
    else if c == ':' && inFlow && rest.head?.any (fun c => isFlowMark c || c == '?') then none
    else if (c == ':' && atGap rest) || (inFlow && isFlowMark c) then some []
    else (plainWord inFlow rest).map (c :: ·)

/-- The end of a plain scalar, and whether the line had ended before it. -/
structure PlainEnd where
  text : List Char
  lineEnded : Bool
  cursor : Cursor

/-- Reads the rest of a plain scalar behind a gap; `text` is what has been read. -/
def readPlainFrom (inFlow : Bool) (leastColumn : Nat) :
    (fuel : Nat) → (text : List Char) → Gap → Cursor → Option PlainEnd
  | 0, text, gap, cursor => some { text, lineEnded := gap.isFolded, cursor }
  | fuel + 1, text, gap, cursor => do
    if cursor.atDocumentMark || cursor.text.head? == some '#' then
      return { text, lineEnded := gap.isFolded, cursor }
    let word ← plainWord inFlow cursor.text
    if word.isEmpty then return { text, lineEnded := gap.isFolded, cursor }
    let text := text ++ gap.folded ++ word
    let cursor := cursor.advance word.length
    if !cursor.text.head?.any isGap then return { text, lineEnded := false, cursor }
    let (gap, cursor) ← Gap.read leastColumn cursor.text.length {} cursor
    if !inFlow && cursor.column < leastColumn then
      return { text, lineEnded := gap.isFolded, cursor }
    readPlainFrom inFlow leastColumn fuel text gap cursor

/-- Reads a plain scalar. Outside of brackets its further lines start at `leastColumn`. -/
def readPlain (inFlow : Bool) (leastColumn : Nat) (cursor : Cursor) : Option PlainEnd :=
  readPlainFrom inFlow leastColumn cursor.text.length [] {} cursor

def hexDigit? (c : Char) : Option Nat :=
  let code := c.toNat
  if c.isDigit then some (code - 48)
  else if 97 ≤ code && code ≤ 102 then some (code - 87)
  else if 65 ≤ code && code ≤ 70 then some (code - 55)
  else none

def hexNumber? (digits : List Char) : Option Nat :=
  digits.foldlM (fun number digit => (hexDigit? digit).map (16 * number + ·)) 0

/-- The character that an escape of one letter stands for. -/
def escaped? : Char → Option Char
  | '0' => some '\x00'
  | 'a' => some '\x07'
  | 'b' => some '\x08'
  | 't' | '\t' => some '\t'
  | 'n' => some '\n'
  | 'v' => some '\x0b'
  | 'f' => some '\x0c'
  | 'r' => some '\r'
  | 'e' => some '\x1b'
  | ' ' => some ' '
  | '"' => some '"'
  | '/' => some '/'
  | '\\' => some '\\'
  | 'N' => some '\u0085'
  | '_' => some '\u00a0'
  | 'L' => some '\u2028'
  | 'P' => some '\u2029'
  | _ => none

/-- The number of hexadecimal digits behind a letter that starts an escape by number. -/
def escapeWidth? : Char → Option Nat
  | 'x' => some 2
  | 'u' => some 4
  | 'U' => some 8
  | _ => none

/-- The character that an escape stands for, behind its backslash, and the length of the escape. -/
def readEscape : List Char → Option (Char × Nat)
  | [] => none
  | c :: rest =>
    match escapeWidth? c with
    | none => (escaped? c).map (·, 1)
    | some width => do
      let digits := rest.take width
      let code ← hexNumber? digits
      if h : digits.length = width ∧ code.isValidChar then
        return (Char.ofNatAux code h.2, width + 1)
      else none

/-- Reads the rest of a quoted scalar up to its closing quote; `text` is what has been read. -/
def readQuotedFrom (double : Bool) :
    (fuel : Nat) → (text : List Char) → Cursor → Option (List Char × Cursor)
  | 0, _, _ => none
  | fuel + 1, text, cursor =>
    if cursor.atDocumentMark then none
    else match double, cursor.text with
      | _, [] => none
      | false, '\'' :: '\'' :: _ => readQuotedFrom double fuel (text ++ ['\'']) (cursor.advance 2)
      | false, '\'' :: _ | true, '"' :: _ => some (text, cursor.next)
      | true, '\\' :: rest =>
        if rest.head?.any isBreak then do
          let (gap, cursor) ← Gap.read 0 rest.length { escaped := true } (cursor.advance 2)
          readQuotedFrom double fuel (text ++ gap.folded) cursor
        else do
          let (c, length) ← readEscape rest
          readQuotedFrom double fuel (text ++ [c]) (cursor.advance (length + 1))
      | _, c :: rest =>
        if isGap c then do
          let (gap, cursor) ← Gap.read 0 (rest.length + 1) {} cursor
          readQuotedFrom double fuel (text ++ gap.folded) cursor
        else readQuotedFrom double fuel (text ++ [c]) cursor.next

def readQuoted (double : Bool) (cursor : Cursor) : Option (List Char × Cursor) :=
  readQuotedFrom double (cursor.text.length + 1) [] cursor

end DoubleEntry.Yaml

import DoubleEntry.Yaml.Scalar

/-! Tags: a handle that a directive gives a meaning to, followed by the rest of the tag. -/

namespace DoubleEntry.Yaml

/-- The value of a byte written as `%` and two hexadecimal digits. -/
def escapedByte? : List Char → Option (Nat × List Char)
  | '%' :: high :: low :: rest => (hexNumber? [high, low]).map (·, rest)
  | _ => none

/-- Reads further bytes of a character into its code. -/
def readContinuation : (count : Nat) → (code : Nat) → List Char → Option (Nat × List Char)
  | 0, code, text => some (code, text)
  | count + 1, code, text => do
    let (byte, rest) ← escapedByte? text
    if byte / 64 == 2 then readContinuation count (code * 64 + byte % 64) rest else none

/-- Reads a character that is written byte by byte. -/
def readEscapedChar (text : List Char) : Option (Char × List Char) := do
  let (first, rest) ← escapedByte? text
  let (code, rest) ←
    if first < 0x80 then some (first, rest)
    else if first / 32 == 6 then readContinuation 1 (first % 32) rest
    else if first / 16 == 14 then readContinuation 2 (first % 16) rest
    else if first / 8 == 30 then readContinuation 3 (first % 8) rest
    else none
  if h : code.isValidChar then return (Char.ofNatAux code h, rest) else none

/-- A character of a tag. `whole` admits those that end a tag inside brackets. -/
def isTagChar (whole : Bool) (c : Char) : Bool :=
  isNameChar c || ";/?:@&=+$.!~*'()".contains c || (whole && ",[]".contains c)

/-- Reads tag characters, and characters that are escaped. -/
def readTagText (whole : Bool) :
    (fuel : Nat) → (text : List Char) → Cursor → Option (List Char × Cursor)
  | 0, text, cursor => some (text, cursor)
  | fuel + 1, text, cursor =>
    match cursor.text with
    | [] => some (text, cursor)
    | c :: rest =>
      if c == '%' then do
        let (decoded, behind) ← readEscapedChar cursor.text
        readTagText whole fuel (text ++ [decoded])
          (cursor.advance (rest.length + 1 - behind.length))
      else if isTagChar whole c then readTagText whole fuel (text ++ [c]) cursor.next
      else some (text, cursor)

/-- A tag as it is written: the handle, and the rest. A tag without a handle is written in full. -/
structure Tag where
  handle : List Char := []
  rest : List Char

namespace Tag

/-- Reads a handle, whose exclamation marks belong to it. -/
def readHandle (cursor : Cursor) : Option (List Char × Cursor) :=
  match cursor.text with
  | '!' :: _ =>
    let (name, cursor) := cursor.next.span isNameChar
    match cursor.text with
    | '!' :: _ => some ('!' :: name ++ ['!'], cursor.next)
    | _ => some ('!' :: name, cursor)
  | _ => none

/-- Whether a handle is closed by a second exclamation mark. -/
def isClosed (handle : List Char) : Bool := 1 < handle.length && handle.getLast? == some '!'

/-- Reads the tag characters that a tag or the meaning of a handle consists of; there has to be
one. -/
def readText (whole : Bool) (cursor : Cursor) : Option (List Char × Cursor) := do
  let (text, cursor) ← readTagText whole cursor.text.length [] cursor
  if text.isEmpty then none else return (text, cursor)

/-- Reads a tag, which begins with an exclamation mark. -/
def readBody (cursor : Cursor) : Option (Tag × Cursor) := do
  match cursor.text with
  | '!' :: '<' :: _ =>
    let (rest, cursor) ← readText true (cursor.advance 2)
    match cursor.text with
    | '>' :: _ => return ({ rest }, cursor.next)
    | _ => none
  | _ =>
    let (handle, cursor) ← readHandle cursor
    if isClosed handle then
      let (rest, cursor) ← readText false cursor
      return ({ handle, rest }, cursor)
    let (more, cursor) ← readTagText false cursor.text.length [] cursor
    let rest := handle.drop 1 ++ more
    return (if rest.isEmpty then { rest := ['!'] } else { handle := ['!'], rest }, cursor)

/-- Reads a tag, which a gap has to follow, or a comma inside brackets. -/
def read (inFlow : Bool) (cursor : Cursor) : Option (Tag × Cursor) := do
  let (tag, cursor) ← readBody cursor
  if atGap cursor.text || (inFlow && cursor.text.head? == some ',') then return (tag, cursor)
  else none

end Tag

end DoubleEntry.Yaml

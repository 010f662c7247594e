import DoubleEntry.Yaml.BlockScalar
import DoubleEntry.Yaml.Tag

/-! The tokens of YAML text, as they stand in it. -/

namespace DoubleEntry.Yaml

inductive Directive where
  | version
  | tagHandle (handle meaning : List Char)

/-- The parts that text is made of. The starts and ends of block collections are not written: they
follow from how the text is indented. -/
inductive Token where
  | directive (directive : Directive)
  | documentStart
  | documentEnd
  | blockSequenceStart
  | blockMappingStart
  | blockEnd
  | flowSequenceStart
  | flowSequenceEnd
  | flowMappingStart
  | flowMappingEnd
  | entry
  | flowEntry
  | key
  | value
  | alias (name : List Char)
  | anchor (name : List Char)
  | tag (tag : Tag)
  | scalar (style : ScalarStyle) (text : List Char)

def readNumber? (cursor : Cursor) : Option (Nat × Cursor) :=
  let (digits, behind) := cursor.span Char.isDigit
  if digits.isEmpty || 9 < digits.length then none
  else some (Nat.ofDigitChars 10 digits 0, behind)

/-- Reads the version behind its directive; the versions 1.1 and 1.2 are known. -/
def readVersion (cursor : Cursor) : Option Cursor := do
  let (major, cursor) ← readNumber? (cursor.skip isSpace)
  if cursor.text.head? != some '.' then none
  let (minor, cursor) ← readNumber? cursor.next
  if major == 1 && (minor == 1 || minor == 2) then return cursor else none

/-- Reads a handle and its meaning behind their directive. -/
def readTagHandle (cursor : Cursor) : Option (Directive × Cursor) := do
  let (handle, cursor) ← Tag.readHandle (cursor.skip isSpace)
  if handle != ['!'] && !Tag.isClosed handle then none
  if !cursor.text.head?.any isSpace then none
  let (meaning, cursor) ← Tag.readText true (cursor.skip isSpace)
  if atGap cursor.text then return (.tagHandle handle meaning, cursor) else none

def Directive.read (cursor : Cursor) : Option (Directive × Cursor) := do
  let (name, cursor) := cursor.next.span isNameChar
  if !atGap cursor.text then none
  let (directive, cursor) ←
    if name == "YAML".toList then (readVersion cursor).map (Directive.version, ·)
    else if name == "TAG".toList then readTagHandle cursor
    else none
  return (directive, ← cursor.endLine?)

def readName (cursor : Cursor) : Option (List Char × Cursor) :=
  let (name, cursor) := cursor.next.span isNameChar
  let ended := cursor.text.head?.all fun c => isGap c || "?:,]\x7d%@\x60".contains c
  if name.isEmpty || !ended then none else some (name, cursor)

end DoubleEntry.Yaml

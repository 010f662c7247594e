/-! The characters of YAML text, and a cursor that knows its line and column. -/

namespace DoubleEntry.Yaml

def isSpace (c : Char) : Bool := c == ' ' || c == '\t'

/-- Ends a line of a text in which `unifyBreaks` has made every line break a single character. -/
def isBreak (c : Char) : Bool := c == '\n' || c == '\u2028' || c == '\u2029'

/-- Separates words, on one line or across lines. -/
def isGap (c : Char) : Bool := isSpace c || isBreak c

/-- Belongs to the names of anchors, tag handles and directives. -/
def isNameChar (c : Char) : Bool := c.isAlphanum || c == '_' || c == '-'

/-- A character that the text may hold. -/
def isAllowed (c : Char) : Bool :=
  let code := c.toNat
  code == 9 || code == 10 || code == 13 || (0x20 ≤ code && code ≤ 0x7E) || code == 0x85 ||
    (0xA0 ≤ code && code ≤ 0xFFFD) || 0x10000 ≤ code

/-- The text with a line feed for each carriage return, next line, and pair of carriage return and
line feed. -/
def unifyBreaks : List Char → List Char
  | '\r' :: '\n' :: rest => '\n' :: unifyBreaks rest
  | '\r' :: rest => '\n' :: unifyBreaks rest
  | '\u0085' :: rest => '\n' :: unifyBreaks rest
  | c :: rest => c :: unifyBreaks rest
  | [] => []

/-- Whether a word ends here. -/
def atGap (text : List Char) : Bool := text.head?.all isGap

/-- Whether `text` starts with one of the marks that stand between documents. -/
def atDocumentMark (text : List Char) : Bool :=
  match text with
  | '-' :: '-' :: '-' :: rest | '.' :: '.' :: '.' :: rest => atGap rest
  | _ => false

/-- A position in a text, with what follows it. -/
structure Cursor where
  text : List Char
  offset : Nat := 0
  line : Nat := 0
  column : Nat := 0

namespace Cursor

def next (cursor : Cursor) : Cursor :=
  match cursor.text with
  | [] => cursor
  | c :: text =>
    if isBreak c then { text, offset := cursor.offset + 1, line := cursor.line + 1 }
    else { text, offset := cursor.offset + 1, line := cursor.line, column := cursor.column + 1 }

def advance (cursor : Cursor) : Nat → Cursor
  | 0 => cursor
  | count + 1 => cursor.next.advance count

/-- The longest run of characters that satisfy `holds`, and the cursor behind it. -/
def span (holds : Char → Bool) (cursor : Cursor) : List Char × Cursor :=
  let run := cursor.text.takeWhile holds
  (run, cursor.advance run.length)

/-- Moves behind all characters that satisfy `holds`. -/
def skip (holds : Char → Bool) (cursor : Cursor) : Cursor := (cursor.span holds).2

def skipComment (cursor : Cursor) : Cursor :=
  if cursor.text.head? == some '#' then cursor.skip (!isBreak ·) else cursor

/-- Moves behind blanks, a comment and the end of the line; nothing else may stand there. -/
def endLine? (cursor : Cursor) : Option Cursor :=
  let cursor := (cursor.skip isSpace).skipComment
  if cursor.text.head?.all isBreak then some cursor.next else none

/-- Whether a mark between documents stands here, at the start of a line. -/
def atDocumentMark (cursor : Cursor) : Bool :=
  cursor.column == 0 && Yaml.atDocumentMark cursor.text

theorem text_next (cursor : Cursor) : cursor.next.text = cursor.text.drop 1 := by
  unfold next
  split <;> simp_all
  split <;> rfl

theorem text_advance (cursor : Cursor) (count : Nat) :
    (cursor.advance count).text = cursor.text.drop count := by
  induction count generalizing cursor with
  | zero => rfl
  | succ count hypothesis => simp [advance, hypothesis, text_next]

/-- A run and what follows it make up the text. -/
theorem span_append (holds : Char → Bool) (cursor : Cursor) :
    (cursor.span holds).1 ++ (cursor.span holds).2.text = cursor.text := by
  have taken : cursor.text.drop (cursor.text.takeWhile holds).length =
      cursor.text.dropWhile holds := by
    induction cursor.text with
    | nil => rfl
    | cons c rest hypothesis =>
      by_cases holds c <;> simp_all
  simp [span, text_advance, taken, List.takeWhile_append_dropWhile]

end Cursor

end DoubleEntry.Yaml

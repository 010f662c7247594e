import DoubleEntry.Yaml.Scalar

/-! Scalars written as blocks of indented lines. -/

namespace DoubleEntry.Yaml

/-- What becomes of the line breaks at the end of a block. -/
inductive Chomping where
  | strip
  | clip
  | keep

def chomping? : Char → Option Chomping
  | '-' => some .strip
  | '+' => some .keep
  | _ => none

/-- What the first line of a block says about the lines below it. -/
structure BlockHeader where
  chomping : Chomping := .clip
  indentation : Option Nat := none

/-- Reads the marks of a header, in either order. An indentation has one digit, which is not `0`. -/
def BlockHeader.read (cursor : Cursor) : Option (BlockHeader × Cursor) :=
  let indentation? (c : Char) : Option Nat :=
    if c.isDigit && c != '0' then some (c.toNat - 48) else none
  let header : BlockHeader × Cursor := match cursor.text with
    | first :: second :: _ =>
      match chomping? first, indentation? first with
      | some chomping, _ =>
        match indentation? second with
        | some width => ({ chomping, indentation := some width }, cursor.advance 2)
        | none => ({ chomping }, cursor.next)
      | none, some width =>
        match chomping? second with
        | some chomping => ({ chomping, indentation := some width }, cursor.advance 2)
        | none => ({ indentation := some width }, cursor.next)
      | none, none => ({}, cursor)
    | [only] =>
      match chomping? only with
      | some chomping => ({ chomping }, cursor.next)
      | none => match indentation? only with
        | some width => ({ indentation := some width }, cursor.next)
        | none => ({}, cursor)
    | [] => ({}, cursor)
  header.2.endLine?.map (header.1, ·)

/-- Empty lines of a block: their breaks, and the furthest column that one of them reaches. -/
structure EmptyLines where
  breaks : List Char := []
  furthest : Nat := 0

/-- Reads empty lines, and the indentation of the line behind them up to column `bound`, where no
tab may stand. -/
def EmptyLines.read (bound : Option Nat) :
    (fuel : Nat) → EmptyLines → Cursor → Option (EmptyLines × Cursor)
  | 0, lines, cursor => some (lines, cursor)
  | fuel + 1, lines, cursor =>
    let inside := bound.all (cursor.column < ·)
    match cursor.text with
    | ' ' :: _ =>
      if inside then read bound fuel lines cursor.next
      else some ({ lines with furthest := max lines.furthest cursor.column }, cursor)
    | text =>
      let lines := { lines with furthest := max lines.furthest cursor.column }
      match text with
      | [] => some (lines, cursor)
      | c :: _ =>
        if c == '\t' && inside then none
        else if isBreak c then
          read bound fuel { lines with breaks := lines.breaks ++ [c] } cursor.next
        else some (lines, cursor)

/-- A block up to the end of a line: its text, the break behind it, whether the line starts with a
blank, and the breaks of the empty lines after it. -/
structure Block where
  text : List Char := []
  lastBreak : List Char := []
  spaced : Bool := false
  emptyLines : List Char := []

namespace Block

/-- The text in front of a further line. In a folded block, a single line feed between lines that do
not start with a blank becomes a blank, and the first of several is dropped. -/
def joined (folded : Bool) (block : Block) (spaced : Bool) : List Char :=
  if folded && block.lastBreak == ['\n'] && !block.spaced && !spaced then
    block.text ++ if block.emptyLines.isEmpty then [' '] else block.emptyLines
  else block.text ++ block.lastBreak ++ block.emptyLines

def chomped (block : Block) : Chomping → List Char
  | .strip => block.text
  | .clip => block.text ++ block.lastBreak
  | .keep => block.text ++ block.lastBreak ++ block.emptyLines

def readLines (folded : Bool) (column : Nat) :
    (fuel : Nat) → Block → Cursor → Option (Block × Cursor)
  | 0, block, cursor => some (block, cursor)
  | fuel + 1, block, cursor =>
    if cursor.column != column || cursor.text.isEmpty then some (block, cursor)
    else do
      let spaced := cursor.text.head?.any isSpace
      let (line, cursor) := cursor.span (!isBreak ·)
      let lastBreak := cursor.text.take 1
      let cursor := cursor.next
      let (empty, cursor) ← EmptyLines.read (some column) (cursor.text.length + 1) {} cursor
      readLines folded column fuel
        { text := block.joined folded spaced ++ line, lastBreak, spaced
          emptyLines := empty.breaks }
        cursor

/-- Reads a block scalar behind its mark. `indent` is the column of the innermost open collection; a
block that does not say how far it is indented is indented as its first line, but more than that
collection. -/
def read (folded : Bool) (indent : Option Nat) (cursor : Cursor) :
    Option (List Char × Cursor) := do
  let (header, cursor) ← BlockHeader.read cursor
  let bound := header.indentation.map (indent.getD 0 + ·)
  let (empty, cursor) ← EmptyLines.read bound (cursor.text.length + 1) {} cursor
  let column := bound.getD (max empty.furthest (max (indent.elim 0 (· + 1)) 1))
  let (block, cursor) ←
    readLines folded column cursor.text.length { emptyLines := empty.breaks } cursor
  return (block.chomped header.chomping, cursor)

end Block

end DoubleEntry.Yaml

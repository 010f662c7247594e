import DoubleEntry.Yaml.Token

/-! Reading text as tokens. Outside of brackets the columns in which the text stands open and close
collections. A key is seen to be one only at the colon behind it, so the places are kept where a key
may have started, one for each bracket that is open and one outside of them. -/

namespace DoubleEntry.Yaml

/-- A place where a key may start: the number of tokens in front of it. A key is needed if nothing
else can stand in its column. -/
structure KeyStart where
  index : Nat
  offset : Nat
  line : Nat
  column : Nat
  needed : Bool

/-- A key has to end on its own line, within 1024 characters. -/
def KeyStart.isOver (start : KeyStart) (cursor : Cursor) : Bool :=
  start.line < cursor.line || start.offset + 1024 < cursor.offset

/-- What has been read: the columns of the open block collections, whether a key may start next, and
where the keys may have started, inside the innermost bracket and around it. -/
structure Layout where
  cursor : Cursor
  tokens : Array Token := #[]
  columns : List Nat := []
  keyAllowed : Bool := true
  keyStart : Option KeyStart := none
  outerStarts : List (Option KeyStart) := []

namespace Layout

def inFlow (layout : Layout) : Bool := !layout.outerStarts.isEmpty

/-- Adds a token, behind which the text goes on at `cursor`. -/
def push (layout : Layout) (token : Token) (cursor : Cursor := layout.cursor) : Layout :=
  { layout with tokens := layout.tokens.push token, cursor }

/-- Closes the block collections that are further to the right than `column`. -/
def closeBeyond (column : Nat) (layout : Layout) : Layout :=
  if layout.inFlow then layout
  else
    let closed := layout.columns.takeWhile (column < ·)
    { layout with
      columns := layout.columns.drop closed.length
      tokens := layout.tokens ++ closed.map fun _ => Token.blockEnd }

def closeAll (layout : Layout) : Layout :=
  if layout.inFlow then layout
  else { layout with
    columns := [], tokens := layout.tokens ++ layout.columns.map fun _ => Token.blockEnd }

/-- Whether a collection in `column` would be a new one. -/
def opensAt (column : Nat) (layout : Layout) : Bool :=
  !layout.inFlow && layout.columns.head?.all (· < column)

/-- Opens a block collection here, unless one is open in this column. -/
def openHere (token : Token) (layout : Layout) : Layout :=
  let column := layout.cursor.column
  if layout.opensAt column then
    { layout.push token with columns := column :: layout.columns }
  else layout

/-- Gives up the innermost start of a key. -/
def dropKey (layout : Layout) : Option Layout :=
  if layout.keyStart.any (·.needed) then none else some { layout with keyStart := none }

/-- Keeps this place as the start of a key, if one may start here. -/
def startKey (layout : Layout) : Option Layout := do
  if !layout.keyAllowed then return layout
  let { offset, line, column, .. } := layout.cursor
  let needed := !layout.inFlow && layout.columns.head? == some column
  let dropped ← layout.dropKey
  return { dropped with
    keyStart := some { index := layout.tokens.size, offset, line, column, needed } }

/-- Gives up the starts of keys that are over. -/
def dropOver (layout : Layout) : Option Layout := do
  let remaining (start : Option KeyStart) : Option (Option KeyStart) :=
    match start with
    | none => some none
    | some start =>
      if !start.isOver layout.cursor then some (some start)
      else if start.needed then none
      else some none
  return { layout with
    keyStart := ← remaining layout.keyStart
    outerStarts := ← layout.outerStarts.mapM remaining }

/-- Moves to the next token, over blanks, comments and the ends of lines. Where a key may start
outside of brackets, a tab is no blank. -/
def skipToToken : (fuel : Nat) → Layout → Layout
  | 0, layout => layout
  | fuel + 1, layout =>
    let tabs := layout.inFlow || !layout.keyAllowed
    let { text, column, .. } := layout.cursor
    let cursor := if column == 0 && text.head? == some '\ufeff' then layout.cursor.next
      else layout.cursor
    let cursor := (cursor.skip fun c => c == ' ' || (tabs && c == '\t')).skipComment
    if cursor.text.head?.any isBreak then
      skipToToken fuel
        { layout with cursor := cursor.next, keyAllowed := layout.keyAllowed || !layout.inFlow }
    else { layout with cursor }

/-- Reads a token that stands between documents, behind which the text goes on at `cursor`. -/
def betweenDocuments (token : Token) (cursor : Cursor) (layout : Layout) : Option Layout := do
  let layout ← layout.closeAll.dropKey
  return { layout.push token cursor with keyAllowed := false }

def openBracket (token : Token) (layout : Layout) : Option Layout := do
  let layout ← layout.startKey
  return { layout.push token layout.cursor.next with
    keyAllowed := true, keyStart := none, outerStarts := layout.keyStart :: layout.outerStarts }

def closeBracket (token : Token) (layout : Layout) : Option Layout := do
  let layout ← layout.dropKey
  let layout := { layout.push token layout.cursor.next with keyAllowed := false }
  match layout.outerStarts with
  | [] => return layout
  | keyStart :: outerStarts => return { layout with keyStart, outerStarts }

def readComma (layout : Layout) : Option Layout := do
  let layout ← layout.dropKey
  return { layout.push .flowEntry layout.cursor.next with keyAllowed := true }

def readDash (layout : Layout) : Option Layout := do
  if !layout.inFlow && !layout.keyAllowed then none
  let layout ← (layout.openHere .blockSequenceStart).dropKey
  return { layout.push .entry layout.cursor.next with keyAllowed := true }

def readQuestion (layout : Layout) : Option Layout := do
  if !layout.inFlow && !layout.keyAllowed then none
  let layout ← (layout.openHere .blockMappingStart).dropKey
  return { layout.push .key layout.cursor.next with keyAllowed := !layout.inFlow }

/-- Reads the colon in front of a value. If a key may have started, it has, and the tokens since
then are its own. -/
def readColon (layout : Layout) : Option Layout :=
  let behind := layout.cursor.next
  match layout.keyStart with
  | some start =>
    let opens := layout.opensAt start.column
    let marks := if opens then #[Token.blockMappingStart, .key] else #[.key]
    let before := layout.tokens.extract 0 start.index
    let since := layout.tokens.extract start.index layout.tokens.size
    let layout := { layout with
      tokens := before ++ marks ++ since
      columns := if opens then start.column :: layout.columns else layout.columns
      keyStart := none, keyAllowed := false }
    some (layout.push .value behind)
  | none =>
    if !layout.inFlow && !layout.keyAllowed then none
    else
      let layout := layout.openHere .blockMappingStart
      some { layout.push .value behind with keyAllowed := !layout.inFlow }

/-- Reads a token that may be a key, or belong to one, with `read`. -/
def readContent (read : Cursor → Option (Token × Cursor)) (layout : Layout) : Option Layout := do
  let layout ← layout.startKey
  let (token, cursor) ← read layout.cursor
  return { layout.push token cursor with keyAllowed := false }

/-- Reads a plain scalar. A key may start behind it if its line has ended. -/
def readPlainScalar (layout : Layout) : Option Layout := do
  let layout ← layout.startKey
  let { text, lineEnded, cursor } ←
    readPlain layout.inFlow (layout.columns.head?.elim 0 (· + 1)) layout.cursor
  return { layout.push (.scalar .plain text) cursor with keyAllowed := lineEnded }

/-- Reads a block scalar behind its mark. -/
def readBlock (folded : Bool) (layout : Layout) : Option Layout := do
  let layout ← layout.dropKey
  let (text, cursor) ← Block.read folded layout.columns.head? layout.cursor.next
  let style := if folded then .folded else .literal
  return { layout.push (.scalar style text) cursor with keyAllowed := true }

/-- Whether a plain scalar may start with `c` in front of `rest`. -/
def startsPlain (inFlow : Bool) (c : Char) (rest : List Char) : Bool :=
  if c == '-' then !rest.head?.any isSpace
  else if c == '?' || c == ':' then !inFlow && !atGap rest
  else !isGap c && !",[]\x7b\x7d#&*!|>'\"%@\x60".contains c

/-- Reads the token that starts with `c`, in front of `rest`. -/
def readToken (layout : Layout) (c : Char) (rest : List Char) : Option Layout :=
  let inFlow := layout.inFlow
  if c == '%' && layout.cursor.column == 0 then do
    let (directive, cursor) ← Directive.read layout.cursor
    layout.betweenDocuments (.directive directive) cursor
  else if layout.cursor.atDocumentMark then
    layout.betweenDocuments (if c == '-' then .documentStart else .documentEnd)
      (layout.cursor.advance 3)
  else match c with
    | '[' => layout.openBracket .flowSequenceStart
    | '\x7b' => layout.openBracket .flowMappingStart
    | ']' => layout.closeBracket .flowSequenceEnd
    | '\x7d' => layout.closeBracket .flowMappingEnd
    | ',' => layout.readComma
    | '*' => layout.readContent fun cursor => (readName cursor).map (.map .alias id)
    | '&' => layout.readContent fun cursor => (readName cursor).map (.map .anchor id)
    | '!' => layout.readContent fun cursor => (Tag.read inFlow cursor).map (.map .tag id)
    | '\'' => layout.readContent fun cursor =>
      (readQuoted false cursor.next).map (.map (.scalar .singleQuoted) id)
    | '"' => layout.readContent fun cursor =>
      (readQuoted true cursor.next).map (.map (.scalar .doubleQuoted) id)
    | c =>
      if c == '-' && atGap rest then layout.readDash
      else if c == '?' && (inFlow || atGap rest) then layout.readQuestion
      else if c == ':' && (inFlow || atGap rest) then layout.readColon
      else if c == '|' && !inFlow then layout.readBlock false
      else if c == '>' && !inFlow then layout.readBlock true
      else if startsPlain inFlow c rest then layout.readPlainScalar
      else none

/-- Reads the tokens up to the end of the text, where all collections are closed. -/
def readAll : (fuel : Nat) → Layout → Option (List Token)
  | 0, _ => none
  | fuel + 1, layout => do
    let layout ← (layout.skipToToken (layout.cursor.text.length + 1)).dropOver
    let layout := layout.closeBeyond layout.cursor.column
    match layout.cursor.text with
    | [] => return (← layout.closeAll.dropKey).tokens.toList
    | c :: rest => readAll fuel (← layout.readToken c rest)

end Layout

def tokens (text : String) : Option (List Token) :=
  let chars := text.toList
  if chars.all isAllowed then
    Layout.readAll (chars.length + 1) { cursor := { text := unifyBreaks chars } }
  else none

end DoubleEntry.Yaml

import DoubleEntry.Directive
import DoubleEntry.Source.Line

/-! Records of a journal. A record starts with a line that is not indented; the indented lines after
the header of a transaction are its postings. -/

namespace DoubleEntry

open Text

/-! Single lines. -/

/-- Reads an amount, with the text at fault in the error. -/
def readAmount (text : List Char) : Except ParseFault Amount :=
  (Amount.ofText text).mapError fun reason =>
    .malformedAmount (String.ofList (trim text)) reason

def readHeader (line : List Char) : Except ParseFault Transaction :=
  let line := trim line
  let (dateText, description) := match cutAt isBlank line with
    | some (dateText, rest) => (dateText, trimStart rest)
    | none => (line, [])
  match Date.ofText? dateText with
  | some date => .ok ⟨date, String.ofList description, []⟩
  | none => .error (.invalidDate (String.ofList dateText))

/-- Cuts a posting without blanks at its ends into account and amount. The account ends at the first
tab, or at the first of two blanks in a row. -/
def splitPosting : List Char → List Char × List Char
  | [] => ([], [])
  | c :: rest =>
    if c == '\t' || isBlank c && rest.head?.any isBlank then ([], c :: rest)
    else
      let (account, amount) := splitPosting rest
      (c :: account, amount)

def accountOfName (name : List Char) : List String :=
  (name.splitOn ':').map fun segment => String.ofList (trim segment)

/-- Reads a posting: an account, and an amount unless it is left out. -/
def readPosting (line : List Char) : Except ParseFault Posting := do
  let (account, amount) := splitPosting (trim line)
  let account := accountOfName (trim account)
  let amount := trim amount
  if amount.isEmpty then return ⟨account, none⟩
  let amount ← readAmount amount
  return ⟨account, some (Balance.single (amount.commodity.getD .bare) amount.number)⟩

/-- Reads a price: a keyword, a date, a time, a commodity and its rate. -/
def readPrice (line : List Char) : Except ParseFault Price :=
  match words line with
  | _ :: date :: time :: source :: rate :: more => do
    let moment := unwords [date, time]
    let some timestamp := Timestamp.ofText? moment
      | throw (.invalidDate (String.ofList moment))
    let rate ← readAmount (unwords (rate :: more))
    return ⟨timestamp, ⟨String.ofList source, false⟩, rate.commodity.getD .bare, rate.number⟩
  | _ => .error (.incompleteDirective .price)

/-- Reads the symbol to be ignored, the second word of the line. -/
def readIgnoredSymbol (line : List Char) : Except ParseFault String :=
  match words line with
  | _ :: symbol :: _ => .ok (String.ofList symbol)
  | _ => .error (.incompleteDirective .ignoreSymbol)

/-- Reads the default commodity off an amount that is written in it, after a keyword of one ASCII
character. -/
def readDefaultCommodity (line : List Char) : Except ParseFault Commodity := do
  let rest := match line with
    | c :: rest => if c.toNat < 128 then trim rest else []
    | [] => []
  if rest.isEmpty then throw (.incompleteDirective .defaultCommodity)
  match (← readAmount rest).commodity with
  | some commodity => return commodity
  | none => throw (.incompleteDirective .defaultCommodity)

/-- Reads the line that starts a record. A transaction has no postings yet. -/
def readStart (first : Char) (line : List Char) : Except ParseFault Directive :=
  if first.isDigit then (readHeader line).map .transaction
  else match first with
    | 'P' => (readPrice line).map .price
    | 'N' => (readIgnoredSymbol line).map .ignoreSymbol
    | 'D' => (readDefaultCommodity line).map .defaultCommodity
    | other => .error (.unrecognizedDirective other)

/-! Records. -/

/-- A transaction that may get more postings, with the lines it takes up so far. -/
structure OpenRecord where
  transaction : Transaction
  source : String
  first : Nat
  last : Nat

/-- A directive on the lines `first` to `last` of `source`. -/
def Located.between (directive : Directive) (source : String) (first last : Nat) : Located :=
  ⟨directive, first, last, if source == Source.memoryName then none else some source⟩

def OpenRecord.close (record : OpenRecord) : Located :=
  .between (.transaction record.transaction) record.source record.first record.last

/-- The record with one more posting, on line `number`. -/
def OpenRecord.add (record : OpenRecord) (posting : Posting) (number : Nat) : OpenRecord :=
  { record with
    transaction := { record.transaction with postings := record.transaction.postings ++ [posting] }
    last := number }

/-- Directives up to the end of a journal, or up to the error that ends it. -/
structure Reading where
  directives : List Located
  error : Option ParseError := none

def Reading.prepend (directives : List Located) (reading : Reading) : Reading :=
  { reading with directives := directives ++ reading.directives }

/-- What comes next of a journal: a directive, or the error that ends it. -/
abbrev Item := Except ParseError Located

/-- Gives the directives of some lines one at a time. It holds the transaction read last, which may
get more postings, and a directive that is due after the one just given. `error` is what ends the
lines, if they do not end by themselves. -/
structure RecordReader where
  lines : List Source.Line
  error : Option ParseError := none
  pending : Option OpenRecord := none
  queued : Option Located := none
  done : Bool := false

namespace RecordReader

def ofFeed (feed : Source.Feed) : RecordReader := { lines := feed.lines, error := feed.error }

/-- Reads lines up to the next item. A transaction is complete when the next record starts or the
lines end; an error loses it. -/
def advance (pending : Option OpenRecord) (error : Option ParseError) :
    List Source.Line → Option Item × RecordReader
  | [] =>
    let ended : RecordReader := { lines := [], done := true }
    match error with
    | none => (pending.map fun record => .ok record.close, ended)
    | some error => (some (.error error), ended)
  | line :: rest =>
    let fail (fault : ParseFault) : Option Item × RecordReader :=
      (some (.error ⟨fault, some line.location⟩), { lines := rest, error, done := true })
    match line.text with
    | [] => advance pending error rest
    | first :: _ =>
      if isBlank first then
        match pending with
        | none => fail .unexpectedPosting
        | some record =>
          match readPosting line.text with
          | .error fault => fail fault
          | .ok posting => advance (some (record.add posting line.number)) error rest
      else
        match readStart first line.text with
        | .error fault => fail fault
        | .ok (.transaction transaction) =>
          let opened := ⟨transaction, line.source, line.number, line.number⟩
          match pending with
          | none => advance (some opened) error rest
          | some previous =>
            (some (.ok previous.close), { lines := rest, error, pending := some opened })
        | .ok directive =>
          let single := Located.between directive line.source line.number line.number
          match pending with
          | none => (some (.ok single), { lines := rest, error })
          | some previous =>
            (some (.ok previous.close), { lines := rest, error, queued := some single })

/-- The next item, if there is one, and the reader behind it. -/
def next (reader : RecordReader) : Option Item × RecordReader :=
  match reader.queued with
  | some directive => (some (.ok directive), { reader with queued := none })
  | none =>
    if reader.done then (none, reader)
    else advance reader.pending reader.error reader.lines

/-- How many items there can still be. -/
def weight (reader : RecordReader) : Nat :=
  2 * reader.lines.length + reader.queued.toList.length + (if reader.done then 0 else 1)

theorem weight_advance {pending : Option OpenRecord} {error : Option ParseError}
    {lines : List Source.Line} {item : Item} {after : RecordReader}
    (advanced : advance pending error lines = (some item, after)) :
    after.weight < 2 * lines.length + 1 := by
  fun_induction advance pending error lines
  case case3 ih | case6 ih | case8 ih =>
    have bound := ih advanced
    rw [List.length_cons]
    omega
  all_goals
    obtain ⟨_, rfl⟩ := Prod.mk.inj advanced
    simp +zetaDelta [weight]
  all_goals omega

theorem weight_next {reader after : RecordReader} {item : Item}
    (given : reader.next = (some item, after)) : after.weight < reader.weight := by
  unfold next at given
  split at given
  case h_1 queued =>
    cases given
    simp [weight, queued]
  case h_2 unqueued =>
    split at given
    case isTrue => cases given
    case isFalse running =>
      have bound := weight_advance given
      simpa [weight, unqueued, running] using bound

/-- Everything up to the end or up to the first error. -/
def drain (reader : RecordReader) : Reading :=
  match given : reader.next with
  | (none, _) => { directives := [] }
  | (some (.error error), _) => { directives := [], error := some error }
  | (some (.ok directive), after) =>
    have : after.weight < reader.weight := weight_next given
    (drain after).prepend [directive]
termination_by reader.weight

end RecordReader

def Reading.ofFeed (feed : Source.Feed) : Reading := (RecordReader.ofFeed feed).drain

/-- All directives, if none is at fault. -/
def Reading.toExcept (reading : Reading) : Except ParseError (List Located) :=
  match reading.error with
  | none => .ok reading.directives
  | some error => .error error

/-- The directives of lines held in memory, in which nothing is included. -/
def parseLines (texts : List (List Char)) : Except ParseError (List Located) :=
  (Reading.ofFeed (Source.Feed.ofLines texts).meaningful).toExcept

end DoubleEntry

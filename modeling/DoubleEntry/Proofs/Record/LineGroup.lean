import DoubleEntry.Record
import Mathlib.Data.List.TakeWhile

/-! The records of a journal as groups of lines, each a line that is not indented with the indented
ones after it. Lines are taken up to the first one at fault and then grouped all at once. Each group
gives one directive, but none where an error leaves a transaction open. -/

namespace DoubleEntry

/-- What is wrong with something that was read, if it could not be read. -/
def faultOf? {α : Type} : Except ParseFault α → Option ParseFault
  | .ok _ => none
  | .error fault => some fault

namespace Source.Line

def isIndented (line : Line) : Bool := line.text.head?.any Text.isBlank

def isHeader (line : Line) : Bool := line.text.head?.any Char.isDigit

/-- The line read as the start of a record, which its first character tells. -/
def record (line : Line) : Except ParseFault Directive :=
  if line.isHeader then (readHeader line.text).map .transaction
  else match line.text.head? with
    | some 'P' => (readPrice line.text).map .price
    | some 'N' => (readIgnoredSymbol line.text).map .ignoreSymbol
    | some 'D' => (readDefaultCommodity line.text).map .defaultCommodity
    | other => .error (.unrecognizedDirective (other.getD ' '))

/-- The line read as a posting. -/
def posting (line : Line) : Except ParseFault Posting := readPosting line.text

/-- What is wrong with a line where `start` was the last line to start a record. -/
def fault? (line : Line) (start : Option Line) : Option ParseFault :=
  if line.isIndented then
    if start.any isHeader then faultOf? line.posting else some .unexpectedPosting
  else faultOf? line.record

end Source.Line

def Source.Feed.prepend (lines : List Line) (feed : Feed) : Feed :=
  { feed with lines := lines ++ feed.lines }

open Source (Line Feed)

theorem prepend_prepend (feed : Feed) (first second : List Line) :
    (feed.prepend second).prepend first = feed.prepend (first ++ second) := by
  simp [Feed.prepend]

/-- The lines before the first one at fault, and the error there. If none is at fault the lines end
with `error`. -/
def acceptLines (error : Option ParseError) (start : Option Line) : List Line → Feed
  | [] => { lines := [], error }
  | line :: rest => match line.fault? start with
    | some fault => { lines := [], error := some ⟨fault, some ⟨line.source, line.number⟩⟩ }
    | none =>
      (acceptLines error (if line.isIndented then start else some line) rest).prepend [line]

/-- The lines of one record. -/
structure LineGroup where
  start : Line
  indented : List Line

namespace LineGroup

def lines (group : LineGroup) : List Line := group.start :: group.indented

def last (group : LineGroup) : Line := group.indented.getLastD group.start

/-- The directive of a group, on the lines of the group and in the source of the first of them, unless
that is a journal held in memory. A transaction gets the postings of its indented lines in order. -/
def read (group : LineGroup) : Except ParseFault Located := do
  let record ← group.start.record
  let postings ← group.indented.mapM Line.posting
  let directive := match record with
    | .transaction transaction => .transaction { transaction with postings }
    | other => other
  let source := group.start.source
  return ⟨directive, group.start.number, group.last.number,
    if source = "<memory>" then none else some source⟩

/-- Cuts lines into groups, a new one at each line that is not indented. -/
def split : List Line → List LineGroup
  | [] => []
  | start :: rest =>
    ⟨start, rest.takeWhile Line.isIndented⟩ :: split (rest.dropWhile Line.isIndented)
termination_by lines => lines.length
decreasing_by
  have := List.length_dropWhile_le Line.isIndented rest
  simp
  omega

/-- The groups that give a directive. An error loses the last one if it is a transaction. -/
def closed (error : Option ParseError) (groups : List LineGroup) : List LineGroup :=
  if error.isSome && groups.getLast?.any (·.start.isHeader) then groups.dropLast else groups

end LineGroup

/-- The directives of lines that were accepted. -/
def Reading.ofAccepted (accepted : Feed) : Except ParseFault Reading := do
  let groups := LineGroup.closed accepted.error (LineGroup.split accepted.lines)
  let directives ← groups.mapM LineGroup.read
  return ⟨directives, accepted.error⟩

/-- The directives of lines that end with `error` unless one of them is at fault. -/
def Reading.ofLines (error : Option ParseError) (lines : List Line) : Except ParseFault Reading :=
  Reading.ofAccepted (acceptLines error none lines)

def linesWithText (lines : List Line) : List Line := lines.filter fun line => !line.text.isEmpty

/-- The directives of a feed of lines, group by group. Lines without text are passed over. -/
def Reading.batch (feed : Feed) : Except ParseFault Reading :=
  Reading.ofLines feed.error (linesWithText feed.lines)

variable {error : Option ParseError} {line : Line} {start : Option Line} {rest : List Line}

theorem fault?_of_record {directive : Directive} (begins : line.isIndented = false)
    (read : line.record = .ok directive) : line.fault? start = none := by
  simp [Line.fault?, begins, read, faultOf?]

theorem acceptLines_of_fault {fault : ParseFault} (wrong : line.fault? start = some fault) :
    acceptLines error start (line :: rest) =
      { lines := [], error := some ⟨fault, some line.location⟩ } := by
  rw [acceptLines, wrong]
  rfl

theorem acceptLines_of_indented (indented : line.isIndented = true)
    (right : line.fault? start = none) :
    acceptLines error start (line :: rest) = (acceptLines error start rest).prepend [line] := by
  rw [acceptLines, right]
  simp [indented]

theorem acceptLines_of_start (begins : line.isIndented = false) (right : line.fault? none = none) :
    acceptLines error none (line :: rest) =
      (acceptLines error (some line) rest).prepend [line] := by
  rw [acceptLines, right]
  simp [begins]

/-- Only an indented line depends on the record before it. -/
theorem acceptLines_of_not_indented (begins : line.isIndented = false) :
    acceptLines error start (line :: rest) = acceptLines error none (line :: rest) := by
  have same : line.fault? start = line.fault? none := by simp [Line.fault?, begins]
  rw [acceptLines, acceptLines, same]
  simp [begins]

/-- After anything but a header an indented line is at fault. -/
theorem acceptLines_of_not_header (single : start.any Line.isHeader = false) :
    acceptLines error start rest = acceptLines error none rest := by
  cases rest with
  | nil => rfl
  | cons line rest =>
    cases indented : line.isIndented with
    | false => exact acceptLines_of_not_indented indented
    | true =>
      have wrong : line.fault? start = some .unexpectedPosting := by
        simp [Line.fault?, indented, single]
      have wrong' : line.fault? none = some .unexpectedPosting := by
        simp [Line.fault?, indented]
      rw [acceptLines_of_fault wrong, acceptLines_of_fault wrong']

theorem acceptLines_indented {indented : List Line}
    (deeper : ∀ line ∈ indented, line.isIndented = true)
    (right : ∀ line ∈ indented, line.fault? start = none) :
    acceptLines error start (indented ++ rest) =
      (acceptLines error start rest).prepend indented := by
  induction indented with
  | nil => rfl
  | cons line indented ih =>
    rw [List.forall_mem_cons] at deeper right
    rw [List.cons_append, acceptLines_of_indented deeper.1 right.1, ih deeper.2 right.2,
      prepend_prepend, List.singleton_append]

theorem head?_acceptLines_not_indented :
    (acceptLines error none rest).lines.head?.any Line.isIndented = false := by
  cases rest with
  | nil => rfl
  | cons line rest =>
    rw [acceptLines]
    split
    case h_1 => rfl
    case h_2 right =>
      by_contra indented
      simp only [Feed.prepend, List.singleton_append, List.head?_cons, Option.any_some,
        Bool.not_eq_false] at indented
      simp [Line.fault?, indented] at right

theorem acceptLines_isPrefix (error : Option ParseError) (start : Option Line)
    (lines : List Line) : (acceptLines error start lines).lines <+: lines := by
  fun_induction acceptLines error start lines with
  | case1 => exact List.nil_prefix
  | case2 => exact List.nil_prefix
  | case3 start line rest right ih => exact List.cons_prefix_cons.mpr ⟨rfl, ih⟩

namespace LineGroup

variable {group : LineGroup} {lines : List Line}

theorem split_append (indented : ∀ line ∈ group.indented, line.isIndented = true)
    (ends : lines.head?.any Line.isIndented = false) :
    split (group.lines ++ lines) = group :: split lines := by
  have taken : (group.indented ++ lines).takeWhile Line.isIndented = group.indented := by
    rw [List.takeWhile_append_of_pos indented]
    cases lines with
    | nil => simp
    | cons line => simp_all
  have left : (group.indented ++ lines).dropWhile Line.isIndented = lines := by
    rw [List.dropWhile_append_of_pos indented]
    cases lines with
    | nil => rfl
    | cons line => simp_all
  rw [LineGroup.lines, List.cons_append, split, taken, left]

theorem split_eq_nil_iff : split lines = [] ↔ lines = [] := by
  cases lines <;> simp [split]

theorem isInfix_of_mem_split (member : group ∈ split lines) :
    group.lines <:+: lines ∧ ∀ line ∈ group.indented, line.isIndented = true := by
  fun_induction split lines with
  | case1 => cases member
  | case2 start rest ih =>
    rcases List.mem_cons.mp member with rfl | late
    · refine ⟨List.IsPrefix.isInfix ?_, fun line => List.mem_takeWhile_imp⟩
      exact List.cons_prefix_cons.mpr ⟨rfl, List.takeWhile_prefix _⟩
    · obtain ⟨inside, indented⟩ := ih late
      refine ⟨inside.trans ?_, indented⟩
      exact (List.dropWhile_suffix _).isInfix.trans (List.suffix_cons _ _).isInfix

theorem closed_nil : closed error [] = [] := by
  simp [closed]

theorem closed_cons {groups : List LineGroup}
    (kept : groups ≠ [] ∨ group.start.isHeader = false ∨ error = none) :
    closed error (group :: groups) = group :: closed error groups := by
  cases groups with
  | nil => rcases kept with some | single | ended <;> simp_all [closed]
  | cons next groups =>
    unfold closed
    rw [List.getLast?_cons_cons, List.dropLast_cons_cons]
    split <;> rfl

theorem closed_subset (error : Option ParseError) (groups : List LineGroup) :
    closed error groups ⊆ groups := by
  unfold closed
  split
  · exact List.dropLast_subset groups
  · exact fun _ member => member

theorem last_mem_lines (group : LineGroup) : group.last ∈ group.lines := by
  rw [LineGroup.last, List.getLastD_eq_getLast?]
  cases last : group.indented.getLast? with
  | none => exact List.mem_cons_self
  | some line => exact List.mem_cons_of_mem _ (List.mem_of_getLast? last)

end LineGroup

theorem linesWithText_of_empty (empty : line.text = []) :
    linesWithText (line :: rest) = linesWithText rest := by
  simp [linesWithText, empty]

theorem linesWithText_of_text {first : Char} {more : List Char} (text : line.text = first :: more) :
    linesWithText (line :: rest) = line :: linesWithText rest := by
  simp [linesWithText, text]

theorem linesWithText_meaningful (feed : Feed) :
    linesWithText feed.meaningful.lines = feed.meaningful.lines := by
  rw [linesWithText, Feed.meaningful, List.filter_filter]
  simp

theorem isIndented_of_text {first : Char} {more : List Char} (text : line.text = first :: more) :
    line.isIndented = Text.isBlank first := by
  simp [Line.isIndented, text]

theorem record_of_text {first : Char} {more : List Char} (text : line.text = first :: more) :
    line.record = readStart first line.text := by
  unfold Line.record Line.isHeader readStart
  rw [text, List.head?_cons, Option.any_some]
  split
  · rfl
  · split <;> simp_all

theorem ofAccepted_nil : Reading.ofAccepted ⟨[], error⟩ = .ok { directives := [], error } := by
  rw [Reading.ofAccepted, LineGroup.split, LineGroup.closed_nil]
  rfl

/-- A group in front of accepted lines gives its directive in front of theirs. -/
theorem ofAccepted_group {group : LineGroup} {directive : Located} {lines : List Line}
    (read : group.read = .ok directive)
    (indented : ∀ line ∈ group.indented, line.isIndented = true)
    (ends : lines.head?.any Line.isIndented = false)
    (kept : lines ≠ [] ∨ group.start.isHeader = false ∨ error = none) :
    Reading.ofAccepted ⟨group.lines ++ lines, error⟩ =
      (Reading.ofAccepted ⟨lines, error⟩).map (·.prepend [directive]) := by
  have kept' : LineGroup.split lines ≠ [] ∨ group.start.isHeader = false ∨ error = none := by
    rwa [Ne, LineGroup.split_eq_nil_iff]
  simp only [Reading.ofAccepted]
  rw [LineGroup.split_append indented ends, LineGroup.closed_cons kept', List.mapM_cons, read]
  cases (LineGroup.closed error (LineGroup.split lines)).mapM LineGroup.read <;> rfl

/-! Headers are the lines that start a transaction. -/

theorem postings_of_readHeader {text : List Char} {transaction : Transaction}
    (read : readHeader text = .ok transaction) : transaction.postings = [] := by
  simp only [readHeader] at read
  split at read
  · cases read
    rfl
  · cases read

theorem map_ne_ok {ε α β : Type} {f : α → β} {b : β} (avoids : ∀ a, f a ≠ b)
    (result : Except ε α) : result.map f ≠ .ok b := by
  cases result with
  | error => exact fun mapped => nomatch mapped
  | ok a => exact fun mapped => avoids a (Except.ok.inj mapped)

theorem record_cases {directive : Directive} (read : line.record = .ok directive) :
    (line.isHeader = true ∧ ∃ transaction, directive = .transaction transaction ∧
      transaction.postings = []) ∨
    (line.isHeader = false ∧ ∀ transaction, directive ≠ .transaction transaction) := by
  rw [Line.record] at read
  split at read
  case isTrue digit =>
    cases header : readHeader line.text with
    | error fault =>
      rw [header] at read
      cases read
    | ok transaction =>
      rw [header] at read
      exact .inl ⟨digit, transaction, (Except.ok.inj read).symm, postings_of_readHeader header⟩
  case isFalse other =>
    refine .inr ⟨Bool.eq_false_iff.mpr other, ?_⟩
    rintro transaction rfl
    split at read
    case h_4 => cases read
    all_goals exact map_ne_ok (by simp) _ read

end DoubleEntry

import DoubleEntry.Proofs.Record.Legible
import DoubleEntry.Proofs.Source.Joining

/-! The directives of two texts joined by a line feed. A text that is accepted on its own does not
start with a posting, so the transaction that is open where it starts is complete. -/

namespace DoubleEntry

open Source (Line Feed)

variable {pending next : Option OpenRecord} {error : Option ParseError} {line : Line}
  {rest : List Line} {given : List Located}

@[simp] theorem Reading.error_prepend (directives : List Located) (reading : Reading) :
    (reading.prepend directives).error = reading.error := rfl

/-- What a line does to a pass: the directives that it completes, and the transaction that may get
more postings behind it. -/
def passLine (pending : Option OpenRecord) (line : Line) :
    Except ParseFault (List Located × Option OpenRecord) :=
  match line.text with
  | [] => .ok ([], pending)
  | first :: _ =>
    if Text.isBlank first then
      match pending with
      | none => .error .unexpectedPosting
      | some record => (readPosting line.text).map fun posting =>
        ([], some (record.add posting line.number))
    else (readStart first line.text).map fun
      | .transaction transaction => (pending.toList.map OpenRecord.close,
          some ⟨transaction, line.source, line.number, line.number⟩)
      | directive => (pending.toList.map OpenRecord.close ++
          [.between directive line.source line.number line.number], none)

theorem gather_cons (pending : Option OpenRecord) (error : Option ParseError) (line : Line)
    (rest : List Line) :
    gather pending error (line :: rest) = match passLine pending line with
      | .error fault => { directives := [], error := some ⟨fault, some line.location⟩ }
      | .ok (given, next) => (gather next error rest).prepend given := by
  simp only [gather, passLine]
  cases text : line.text with
  | nil => rfl
  | cons first more =>
    cases blank : Text.isBlank first with
    | true =>
      cases pending with
      | none => simp [blank]
      | some record => cases readPosting (first :: more) <;> simp [blank, Except.map]
    | false =>
      cases read : readStart first (first :: more) with
      | error fault => simp [blank, read, Except.map]
      | ok directive => cases directive <;> simp [blank, read, Except.map]

theorem gather_of_passLine (passed : passLine pending line = .ok (given, next))
    (error : Option ParseError) (rest : List Line) :
    gather pending error (line :: rest) = (gather next error rest).prepend given := by
  rw [gather_cons, passed]

theorem exists_passLine (accepted : (gather pending error (line :: rest)).error = none) :
    ∃ given next, passLine pending line = .ok (given, next) ∧
      (gather next error rest).error = none := by
  rw [gather_cons] at accepted
  split at accepted
  case h_1 => cases accepted
  case h_2 given next passed => exact ⟨given, next, passed, accepted⟩

theorem error_of_gather {lines : List Line} (accepted : (gather pending error lines).error = none) :
    error = none := by
  induction lines generalizing pending with
  | nil =>
    cases error with
    | none => rfl
    | some error => cases accepted
  | cons line rest ih =>
    obtain ⟨given, next, _, later⟩ := exists_passLine accepted
    exact ih later

/-- A line that can be passed with nothing open either leaves open what is, or completes it. -/
theorem passLine_of_none (passed : passLine none line = .ok (given, next))
    (pending : Option OpenRecord) :
    given = [] ∧ next = none ∧ passLine pending line = .ok ([], pending) ∨
      passLine pending line = .ok (pending.toList.map OpenRecord.close ++ given, next) := by
  unfold passLine at passed ⊢
  split at passed
  case h_1 =>
    cases passed
    exact .inl ⟨rfl, rfl, rfl⟩
  case h_2 first more text =>
    split at passed
    case isTrue => cases passed
    case isFalse solid =>
      right
      rw [if_neg solid]
      cases read : readStart first line.text with
      | error fault =>
        rw [read] at passed
        cases passed
      | ok directive =>
        rw [read] at passed
        cases directive <;> cases passed <;> simp [Except.map]

/-- Lines that are accepted on their own complete what is open in front of them. -/
theorem gather_of_accepted {lines : List Line} (accepted : (gather none error lines).error = none)
    (pending : Option OpenRecord) :
    gather pending error lines =
      (gather none error lines).prepend (pending.toList.map OpenRecord.close) := by
  induction lines with
  | nil =>
    rw [error_of_gather accepted]
    simp [gather, Reading.prepend]
  | cons line rest ih =>
    obtain ⟨given, next, passed, later⟩ := exists_passLine accepted
    rw [gather_of_passLine passed]
    obtain ⟨rfl, rfl, kept⟩ | closed := passLine_of_none passed pending
    · rw [gather_of_passLine kept]
      exact ih later
    · rw [gather_of_passLine closed, Reading.prepend_prepend]

/-- Lines after lines: nothing is left open between them. -/
theorem gather_append {first second : List Line}
    (ends : (gather pending none first).error = none)
    (accepted : (gather none error second).error = none) :
    gather pending error (first ++ second) =
      (gather none error second).prepend (gather pending none first).directives := by
  induction first generalizing pending with
  | nil => exact gather_of_accepted accepted pending
  | cons line first ih =>
    obtain ⟨given, next, passed, later⟩ := exists_passLine ends
    rw [List.cons_append, gather_of_passLine passed, gather_of_passLine passed, ih later]
    exact Reading.prepend_prepend _ _ _

/-! Lines counted in another way. -/

def Located.renumber (change : Nat → Nat) (located : Located) : Located :=
  { located with first := change located.first, last := change located.last }

def OpenRecord.renumber (change : Nat → Nat) (record : OpenRecord) : OpenRecord :=
  { record with first := change record.first, last := change record.last }

def Reading.renumber (change : Nat → Nat) (reading : Reading) : Reading :=
  { directives := reading.directives.map (Located.renumber change)
    error := reading.error.map (ParseError.renumber change) }

theorem close_renumber (change : Nat → Nat) (pending : Option OpenRecord) :
    (pending.map (OpenRecord.renumber change)).toList.map OpenRecord.close =
      (pending.toList.map OpenRecord.close).map (Located.renumber change) := by
  cases pending <;> rfl

theorem passLine_renumber (change : Nat → Nat) (pending : Option OpenRecord) (line : Line) :
    passLine (pending.map (OpenRecord.renumber change)) (line.renumber change) =
      (passLine pending line).map fun (given, next) =>
        (given.map (Located.renumber change), next.map (OpenRecord.renumber change)) := by
  obtain ⟨source, number, text⟩ := line
  cases text with
  | nil => rfl
  | cons first more =>
    cases blank : Text.isBlank first with
    | true =>
      cases pending with
      | none => simp [passLine, Line.renumber, blank, Except.map]
      | some record =>
        cases read : readPosting (first :: more) <;>
          simp [passLine, Line.renumber, blank, read, Except.map, OpenRecord.renumber,
            OpenRecord.add]
    | false =>
      cases read : readStart first (first :: more) with
      | error fault => simp [passLine, Line.renumber, blank, read, Except.map]
      | ok directive =>
        cases directive <;>
          simp [passLine, Line.renumber, blank, read, Except.map, close_renumber,
            OpenRecord.renumber, Located.renumber, Located.between]

/-- Passing lines does not depend on how they are numbered. -/
theorem gather_renumber (change : Nat → Nat) (pending : Option OpenRecord)
    (error : Option ParseError) (lines : List Line) :
    gather (pending.map (OpenRecord.renumber change)) (error.map (ParseError.renumber change))
        (lines.map (Line.renumber change)) =
      (gather pending error lines).renumber change := by
  induction lines generalizing pending with
  | nil =>
    cases error with
    | none => simp [gather, Reading.renumber, close_renumber]
    | some error => rfl
  | cons line rest ih =>
    rw [List.map_cons, gather_cons, gather_cons, passLine_renumber]
    cases passLine pending line with
    | error fault => rfl
    | ok passed =>
      obtain ⟨given, next⟩ := passed
      simp only [Except.map, ih]
      simp [Reading.renumber, Reading.prepend]

namespace Reading

theorem ofFeed_renumber (change : Nat → Nat) (feed : Feed) :
    ofFeed (feed.renumber change) = (ofFeed feed).renumber change := by
  rw [ofFeed_eq_gather, ofFeed_eq_gather]
  exact gather_renumber change none feed.error feed.lines

theorem ofFeed_append {feed next : Feed} (ends : (ofFeed feed).error = none)
    (accepted : (ofFeed next).error = none) :
    ofFeed (feed ++ next) = (ofFeed next).prepend (ofFeed feed).directives := by
  rw [ofFeed_eq_gather] at ends accepted
  rw [ofFeed_eq_gather, ofFeed_eq_gather, ofFeed_eq_gather]
  obtain ⟨lines, error⟩ := feed
  obtain rfl : error = none := error_of_gather ends
  exact gather_append ends accepted

theorem error_renumber_eq_none_iff (change : Nat → Nat) (reading : Reading) :
    (reading.renumber change).error = none ↔ reading.error = none :=
  Option.map_eq_none_iff

theorem map_directive_renumber (change : Nat → Nat) (reading : Reading) :
    (reading.renumber change).directives.map Located.directive =
      reading.directives.map Located.directive := by
  rw [renumber, List.map_map]
  rfl

theorem map_source_renumber (change : Nat → Nat) (reading : Reading) :
    (reading.renumber change).directives.map Located.source =
      reading.directives.map Located.source := by
  rw [renumber, List.map_map]
  rfl

/-- What is read, and whether all can be read, does not depend on the numbers of the lines. -/
theorem ofFeed_of_unnumbered {feed other : Feed} (same : feed.unnumbered = other.unnumbered) :
    ((ofFeed feed).error = none ↔ (ofFeed other).error = none) ∧
      (ofFeed feed).directives.map Located.directive =
        (ofFeed other).directives.map Located.directive ∧
      (ofFeed feed).directives.map Located.source =
        (ofFeed other).directives.map Located.source := by
  have readings : (ofFeed feed).renumber (fun _ => 0) = (ofFeed other).renumber fun _ => 0 := by
    rw [← ofFeed_renumber, ← ofFeed_renumber]
    exact congrArg ofFeed same
  refine ⟨?_, ?_, ?_⟩
  · rw [← error_renumber_eq_none_iff, readings, error_renumber_eq_none_iff]
  · rw [← map_directive_renumber, readings, map_directive_renumber]
  · rw [← map_source_renumber, readings, map_source_renumber]

end Reading

/-- All directives of a text held in memory, whoever answers about files. -/
def FileAccess.parse (files : FileAccess) (text : String) : Except ParseError (List Located) :=
  (Reading.ofFeed (Feed.ofText files text.toList ".").meaningful).toExcept

theorem parseText_eq_parse (fs : FileSystem) : parseText fs = fs.access.parse := rfl

/-- Two accepted texts that are joined by a line feed are accepted, over whatever files. The
directives are those of the first text as they are, and then those of the second with the same data
and the same sources. Without include lines in the second text, these are counted on from the lines
of the first. -/
theorem parse_join {files : FileAccess} {a b : String} {first second : List Located}
    (firstRead : files.parse a = .ok first) (secondRead : files.parse b = .ok second) :
    ∃ later, files.parse (a ++ "\n" ++ b) = .ok (first ++ later) ∧
      later.map Located.directive = second.map Located.directive ∧
      later.map Located.source = second.map Located.source ∧
      ((∀ line ∈ Text.lines b.toList, Source.includeTargets? line = none) →
        later = second.map (Located.renumber (· + (1 + a.toList.count '\n')))) := by
  obtain ⟨rfl, firstEnds⟩ := toExcept_eq_ok firstRead
  obtain ⟨rfl, secondEnds⟩ := toExcept_eq_ok secondRead
  let moved := (Source.spliceFrom files "." (1 + a.toList.count '\n') b.toList).meaningful
  obtain ⟨ends, directives, sources⟩ : _ ∧ _ ∧ _ :=
    Reading.ofFeed_of_unnumbered (Source.unnumbered_spliceFrom "." _ b.toList)
  have joined : (Feed.ofText files (a ++ "\n" ++ b).toList ".").meaningful =
      (Feed.ofText files a.toList ".").meaningful ++ moved := by
    rw [String.toList_append, String.toList_append, List.append_assoc]
    exact Source.meaningful_join files a.toList b.toList "."
  have movedEnds : (Reading.ofFeed moved).error = none := ends.mpr secondEnds
  refine ⟨(Reading.ofFeed moved).directives, ?_, directives, sources, fun plain => ?_⟩
  · rw [FileAccess.parse, joined, Reading.ofFeed_append firstEnds movedEnds, Reading.toExcept,
      Reading.error_prepend, movedEnds]
    rfl
  · have counted : moved = _ := Source.spliceFrom_of_plain plain "." _
    rw [counted, Reading.ofFeed_renumber]
    rfl

/-- A file `shop` that ends within a transaction. -/
def FileSystem.teaShop : FileSystem :=
  (ofWorkDir []).write "shop" (.file "2013/2/2 Tea\n\tTea\t$1\n\tBank".toUTF8.data.toList)

/-- An include line, and a transaction that is open until the end. -/
def flatRent : String := "include shop\n2013/2/1 Rent # paid\n\tFlat\t$5\n\tBank\r"

/-- A directive on one line, and a transaction. -/
def dollarAndTea : String := "N $\n2013/2/3 Tea\n\tTea\t$1\n\tBank"

def lineSpans (directives : List Located) : List (Nat × Nat) :=
  directives.map fun located => (located.first, located.last)

theorem parse_join_rentAndTea :
    ∃ first second, FileSystem.teaShop.access.parse flatRent = .ok first ∧
      FileSystem.teaShop.access.parse dollarAndTea = .ok second ∧
      lineSpans first = [(1, 3), (2, 4)] ∧ lineSpans second = [(1, 1), (2, 4)] ∧
      ∃ later, FileSystem.teaShop.access.parse (flatRent ++ "\n" ++ dollarAndTea) =
          .ok (first ++ later) ∧
        later.map Located.directive = second.map Located.directive ∧
        later.map Located.source = second.map Located.source ∧
        later = second.map (Located.renumber (· + 4)) := by
  have firstSpans : (parseText .teaShop flatRent).map lineSpans = .ok [(1, 3), (2, 4)] := by
    rw [parseText_eq_gather]
    decide +kernel
  have secondSpans : (parseText .teaShop dollarAndTea).map lineSpans = .ok [(1, 1), (2, 4)] := by
    rw [parseText_eq_gather]
    decide +kernel
  rw [parseText_eq_parse] at firstSpans secondSpans
  have plain : ∀ line ∈ Text.lines dollarAndTea.toList, Source.includeTargets? line = none := by
    decide +kernel
  obtain ⟨first, firstRead, firstLines⟩ := exists_of_map_eq_ok firstSpans
  obtain ⟨second, secondRead, secondLines⟩ := exists_of_map_eq_ok secondSpans
  obtain ⟨later, read, directives, sources, counted⟩ := parse_join firstRead secondRead
  exact ⟨first, second, firstRead, secondRead, firstLines, secondLines, later, read, directives,
    sources, counted plain⟩

end DoubleEntry

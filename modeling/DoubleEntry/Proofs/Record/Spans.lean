import DoubleEntry.Proofs.Record.Grouping
import DoubleEntry.Proofs.Record.Joining
import DoubleEntry.Proofs.Source.Origins
import Mathlib.Data.List.Chain

/-! The lines that a directive is on. The source and the first number are those of the line that
starts its record, the last number is that of the last line. A record may go on in another source,
in which this number says nothing about the source that is named. -/

namespace DoubleEntry

open Source (Line Feed Origin Includes stripComment includeTargets?)
open Source.Reader (Reads Numbers Starts)

/-! Records that go on in the source where they began. -/

/-- The line stands in the same source, further up. -/
def Source.Line.Before (line next : Line) : Prop :=
  line.source = next.source ∧ line.number < next.number

/-- An indented line stands behind the line before it in one source. -/
def Source.Line.GoesOn (before : Option Line) (line : Line) : Prop :=
  line.isIndented = true → ∃ previous, before = some previous ∧ previous.Before line

/-- Each line goes on from the one before it. -/
def Steady : Option Line → List Line → Prop
  | _, [] => True
  | before, line :: rest => line.GoesOn before ∧ Steady (some line) rest

namespace Steady

variable {before : Option Line} {lines first second : List Line}

theorem of_none (steady : Steady none lines) : Steady before lines := by
  cases lines with
  | nil => trivial
  | cons line rest =>
    refine ⟨fun indented => ?_, steady.2⟩
    obtain ⟨previous, missing, _⟩ := steady.1 indented
    cases missing

theorem append (one : Steady before first) (other : Steady none second) :
    Steady before (first ++ second) := by
  induction first generalizing before with
  | nil => exact other.of_none
  | cons line first ih => exact ⟨one.1, ih one.2⟩

theorem append_feed {feed next : Feed} (one : Steady before feed.lines)
    (other : Steady none next.lines) : Steady before (feed ++ next).lines := by
  rcases Feed.lines_append feed next with cut | whole
  · rwa [cut]
  · rw [whole]
    exact one.append other

theorem isChain (steady : Steady before lines) :
    lines.IsChain fun line next => next.isIndented = true → line.Before next := by
  induction lines generalizing before with
  | nil => exact .nil
  | cons line rest ih =>
    cases rest with
    | nil => exact .singleton line
    | cons next rest =>
      refine .cons_cons (fun indented => ?_) (ih steady.2)
      obtain ⟨previous, same, goesOn⟩ := steady.2.1 indented
      cases same
      exact goesOn

end Steady

/-- Whether no indented line of a source can belong to a record that has begun elsewhere: no file is
included between it and the line with text before it. `begun` says whether there is such a line. -/
def selfContained (begun : Bool) : List (Except FileFault (List Char)) → Bool
  | .ok text :: rest =>
    match includeTargets? text, stripComment text with
    | some _, _ => selfContained false rest
    | none, [] => selfContained begun rest
    | none, first :: _ => (begun || !Text.isBlank first) && selfContained true rest
  | _ => true

theorem additive_steady : Feed.Additive fun feed => Steady none feed.meaningful.lines where
  silent feed none := by
    rw [Feed.meaningful, none]
    trivial
  append feed next first second := by
    rw [Feed.meaningful_append]
    exact first.append_feed second

variable {files : FileAccess} {reader : Source.Reader}

theorem meaningful_single_of_empty {line : Line} (empty : stripComment line.text = []) :
    (Feed.single line).meaningful = ∅ := by
  simp only [Feed.single, Feed.meaningful, List.map_cons, List.map_nil, empty]
  rfl

theorem meaningful_single_of_text {line : Line} {first : Char} {more : List Char}
    (text : stripComment line.text = first :: more) :
    (Feed.single line).meaningful = .single { line with text := first :: more } := by
  simp only [Feed.single, Feed.meaningful, List.map_cons, List.map_nil, text]
  rfl

/-- In a source that is self-contained each line goes on from the one before it, if all that is
included there does. The line before is the last one that the source had. -/
theorem steady_spliceLines {splice : String → Except ParseFault Feed} {origin : Origin}
    {lines : List (Except FileFault (List Char))} {begun : Bool} {before : Option Line} {read : Nat}
    (contained : selfContained begun lines = true)
    (behind : begun = true → ∃ line, before = some line ∧ line.source = origin.name ∧
      line.number ≤ read)
    (inner : ∀ path feed, Includes files origin.dir lines path → splice path = .ok feed →
      Steady none feed.meaningful.lines) :
    Steady before (Source.spliceLines files splice origin read lines).meaningful.lines := by
  fun_induction selfContained begun lines generalizing before read with
  | case1 begun text rest targets named ih =>
    -- neither what is included nor what comes behind it starts with an indented line
    have here : Steady none
        (Source.spliceLine files splice origin (read + 1) text).meaningful.lines := by
      refine additive_steady.spliceLine (by simp [named]) (fun path feed names => ?_) _
      exact inner path feed (names.mono (by simp))
    rw [Source.spliceLines_cons, Feed.meaningful_append]
    refine here.of_none.append_feed (ih contained nofun fun path feed names => ?_)
    exact inner path feed (names.mono (List.subset_cons_self _ _))
  | case2 begun text rest stripped named ih =>
    rw [Source.spliceLines_cons, Feed.meaningful_append, Source.spliceLine_of_plain named,
      meaningful_single_of_empty stripped, Feed.empty_append]
    refine ih contained (fun begun => ?_) fun path feed names => ?_
    · obtain ⟨line, last, source, number⟩ := behind begun
      exact ⟨line, last, source, Nat.le_succ_of_le number⟩
    · exact inner path feed (names.mono (List.subset_cons_self _ _))
  | case3 begun text rest first more stripped named ih =>
    rw [Bool.and_eq_true, Bool.or_eq_true] at contained
    rw [Source.spliceLines_cons, Feed.meaningful_append, Source.spliceLine_of_plain named,
      meaningful_single_of_text stripped]
    refine ⟨fun indented => ?_, ih contained.2 (fun _ => ⟨_, rfl, rfl, Nat.le_refl _⟩)
      fun path feed names => ?_⟩
    · have blank : Text.isBlank first = true := indented
      obtain ⟨line, last, source, number⟩ := behind (by simpa [blank] using contained.1)
      exact ⟨line, last, source, Nat.lt_succ_of_le number⟩
    · exact inner path feed (names.mono (List.subset_cons_self _ _))
  | case4 lines begun unread =>
    match lines, unread with
    | [], _ => trivial
    | .error _ :: _, _ => trivial
    | .ok text :: rest, unread => exact (unread text rest rfl).elim

theorem Source.Reader.Starts.steady (starts : Starts files reader)
    (contained : ∀ origin lines, Reads files reader origin lines →
      selfContained false lines = true) :
    Steady none starts.meaningful.lines :=
  starts.feed_induction fun origin lines _ reads inner =>
    steady_spliceLines (contained origin lines reads) nofun inner

/-! The records of a feed. -/

/-- Each directive is what the lines of its record give, which follow each other in the feed. -/
theorem exists_record {lines : Feed} {located : Located}
    (given : located ∈ (Reading.ofFeed lines.meaningful).directives) :
    ∃ record : LineGroup, record.lines <:+: lines.meaningful.lines ∧
      (∀ line ∈ record.indented, line.isIndented = true) ∧ record.read = .ok located := by
  have grouped : Reading.ofLines lines.meaningful.error
      ([] ++ linesWithText lines.meaningful.lines) = .ok (Reading.ofFeed lines.meaningful) :=
    ofFeed_eq_gather lines.meaningful ▸ ofLines_gather .nothing lines.meaningful.lines
  rw [linesWithText_meaningful, List.nil_append, Reading.ofLines, Reading.ofAccepted] at grouped
  obtain ⟨directives, read, same⟩ := exists_of_bind_eq_ok grouped
  rw [← Except.ok.inj same] at given
  obtain ⟨record, member, read⟩ := exists_of_mem_mapM read given
  obtain ⟨inside, indented⟩ :=
    LineGroup.isInfix_of_mem_split (LineGroup.closed_subset _ _ member)
  exact ⟨record, inside.trans (acceptLines_isPrefix ..).isInfix, indented, read⟩

def Located.sourceName (located : Located) : String := located.source.getD Source.memoryName

theorem LineGroup.lines_of_read {record : LineGroup} {located : Located}
    (read : record.read = .ok located) :
    located.sourceName = record.start.source ∧ located.first = record.start.number ∧
      located.last = record.last.number := by
  obtain ⟨directive, _, read⟩ := exists_of_bind_eq_ok read
  obtain ⟨postings, _, read⟩ := exists_of_bind_eq_ok read
  cases read
  refine ⟨?_, rfl, rfl⟩
  unfold Located.sourceName
  by_cases held : record.start.source = "<memory>" <;> simp [held, Source.memoryName]

/-- The last line of a record whose lines stand one below the other in one source. -/
theorem LineGroup.last_of_isChain {record : LineGroup} (chain : record.lines.IsChain Line.Before) :
    record.last.source = record.start.source ∧ record.start.number ≤ record.last.number := by
  obtain ⟨start, indented⟩ := record
  change (indented.getLastD start).source = start.source ∧
    start.number ≤ (indented.getLastD start).number
  induction indented generalizing start with
  | nil => exact ⟨rfl, Nat.le_refl _⟩
  | cons next indented ih =>
    obtain ⟨before, rest⟩ := List.isChain_cons_cons.mp chain
    obtain ⟨source, number⟩ := ih next rest
    rw [List.getLastD_cons]
    exact ⟨source.trans before.1.symm, Nat.le_trans (Nat.le_of_lt before.2) number⟩

theorem Steady.record_isChain {before : Option Line} {lines : List Line} {record : LineGroup}
    (steady : Steady before lines) (inside : record.lines <:+: lines)
    (indented : ∀ line ∈ record.indented, line.isIndented = true) :
    record.lines.IsChain Line.Before := by
  have chain := List.IsChain.infix steady.isChain inside
  exact chain.imp_of_mem_tail_imp fun line next _ later goesOn => goesOn (indented next later)

/-- The first and the last line that a directive is on are lines of the source that it names, in
this order. -/
def Located.WithinSource (files : FileAccess) (reader : Source.Reader) (located : Located) : Prop :=
  ∃ origin lines, Reads files reader origin lines ∧ origin.name = located.sourceName ∧
    1 ≤ located.first ∧ located.first ≤ located.last ∧ located.last ≤ lines.length

theorem withinSource_iff {located : Located}
    (first : Numbers files reader located.sourceName located.first) :
    located.WithinSource files reader ↔ located.first ≤ located.last ∧
      Numbers files reader located.sourceName located.last := by
  constructor
  · rintro ⟨origin, lines, reads, name, positive, ordered, within⟩
    exact ⟨ordered, origin, lines, reads, name, Nat.le_trans positive ordered, within⟩
  · rintro ⟨ordered, origin, lines, reads, name, _, within⟩
    obtain ⟨_, _, _, _, positive, _⟩ := first
    exact ⟨origin, lines, reads, name, positive, ordered, within⟩

section

variable (starts : Starts files reader) {record : LineGroup} {located : Located}
  (inside : record.lines <:+: starts.meaningful.lines)
  (read : record.read = .ok located)

include inside read

theorem numbers_first : Numbers files reader located.sourceName located.first := by
  obtain ⟨source, first, _⟩ := LineGroup.lines_of_read read
  rw [source, first]
  exact starts.numbers (inside.subset List.mem_cons_self)

theorem withinSource_iff_record :
    located.WithinSource files reader ↔ record.start.number ≤ record.last.number ∧
      Numbers files reader record.start.source record.last.number := by
  rw [withinSource_iff (numbers_first starts inside read)]
  obtain ⟨source, first, last⟩ := LineGroup.lines_of_read read
  rw [source, first, last]

theorem withinSource_of_isChain (chain : record.lines.IsChain Line.Before) :
    located.WithinSource files reader := by
  obtain ⟨source, ordered⟩ := LineGroup.last_of_isChain chain
  refine (withinSource_iff_record starts inside read).mpr ⟨ordered, ?_⟩
  rw [← source]
  exact starts.numbers (inside.subset record.last_mem_lines)

end

/-- Each directive names the source where its record starts, and the number of the line there. Its
last number is that of the last line of its record, in the source where that line stands. So its
lines are within the source that it names exactly if this number is one of a line there, not before
the first. That is so if the record goes on in one source, and it is so of every directive if each
source of the journal is self-contained. -/
theorem spans_of_records (starts : Starts files reader) :
    (∀ located ∈ (Reading.ofFeed starts.meaningful).directives,
      ∃ record : LineGroup,
        record.lines <:+: starts.meaningful.lines ∧
        (∀ line ∈ record.indented, line.isIndented = true) ∧
        record.read = .ok located ∧
        Numbers files reader located.sourceName located.first ∧
        Numbers files reader record.last.source located.last ∧
        (located.WithinSource files reader ↔ record.start.number ≤ record.last.number ∧
          Numbers files reader record.start.source record.last.number) ∧
        (record.lines.IsChain Line.Before → located.WithinSource files reader)) ∧
    ((∀ origin lines, Reads files reader origin lines → selfContained false lines = true) →
      ∀ located ∈ (Reading.ofFeed starts.meaningful).directives,
        located.WithinSource files reader) := by
  constructor
  · intro located given
    obtain ⟨record, inside, indented, read⟩ := exists_record given
    obtain ⟨_, _, last⟩ := LineGroup.lines_of_read read
    exact ⟨record, inside, indented, read, numbers_first starts inside read,
      last ▸ starts.numbers (inside.subset record.last_mem_lines),
      withinSource_iff_record starts inside read, withinSource_of_isChain starts inside read⟩
  · intro contained located given
    obtain ⟨record, inside, indented, read⟩ := exists_record given
    have chain := (starts.steady contained).record_isChain inside indented
    exact withinSource_of_isChain starts inside read chain

/-- Whether every source of a journal is self-contained can be seen from the lines of its start and
of all that can be opened. -/
theorem selfContained_of_places
    (start : ∀ frame ∈ reader.stack, selfContained false frame.rest = true)
    (others : ∀ place ∈ files.places,
      (files.linesAt place).toOption.all (selfContained false) = true) :
    ∀ origin lines, Reads files reader origin lines → selfContained false lines = true := by
  intro origin lines reads
  cases reads with
  | opened member => exact start _ member
  | included outer named located readable =>
    have contained := others _ (files.mem_places readable)
    rwa [readable] at contained

theorem spans_of_records_flatRent :
    ∃ starts : Starts FileSystem.teaShop.access (Source.Reader.ofText flatRent.toList "."),
      (FileSystem.teaShop.access.parse flatRent).map lineSpans = .ok [(1, 3), (2, 4)] ∧
      ∀ located ∈ (Reading.ofFeed starts.meaningful).directives,
        located.WithinSource FileSystem.teaShop.access
          (Source.Reader.ofText flatRent.toList ".") := by
  have starts : Starts FileSystem.teaShop.access (Source.Reader.ofText flatRent.toList ".") :=
    .text _ _
  refine ⟨starts, ?_, (spans_of_records starts).2 (selfContained_of_places ?_ ?_)⟩
  · rw [← parseText_eq_parse, parseText_eq_gather]
    decide +kernel
  · decide +kernel
  · decide +kernel

/-- A file `flat` that ends within a transaction, after an empty line and a directive. -/
def FileSystem.rentedFlat : FileSystem :=
  (ofWorkDir []).write "flat" (.file "N $\n\n2013/2/20 Rent\n\tFlat\t$5".toUTF8.data.toList)

/-- The transaction of the file that it includes goes on in this text. -/
def paidByBank : String := "include flat\n\tBank\n"

/-- A transaction from line 3 of the file named to line 2 of another source. -/
theorem paidByBank_span_reversed :
    (parseText .rentedFlat paidByBank).map lineSpans = .ok [(1, 1), (3, 2)] ∧
      ¬ ∀ located ∈ (Reading.ofText .rentedFlat paidByBank).directives,
        located.WithinSource FileSystem.rentedFlat
          (Source.Reader.ofText paidByBank.toList ".") := by
  have spans : (parseText .rentedFlat paidByBank).map lineSpans = .ok [(1, 1), (3, 2)] := by
    rw [parseText_eq_gather]
    decide +kernel
  refine ⟨spans, fun within => ?_⟩
  obtain ⟨directives, read, lines⟩ := exists_of_map_eq_ok spans
  obtain ⟨rfl, _⟩ := toExcept_eq_ok read
  have reversed : (3, 2) ∈ lineSpans (Reading.ofText .rentedFlat paidByBank).directives := by
    rw [lines]
    decide
  obtain ⟨located, member, same⟩ := List.mem_map.mp reversed
  obtain ⟨_, _, _, _, _, ordered, _⟩ := within located member
  obtain ⟨first, last⟩ := Prod.mk.inj same
  omega

end DoubleEntry

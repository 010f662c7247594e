import DoubleEntry.Proofs.Record.LineGroup
import DoubleEntry.Proofs.Record.Streaming

/-! A pass over the lines of a journal gives what grouping them gives. The transaction that the pass
holds is that of the last group so far, which may get more lines. -/

namespace DoubleEntry

open Source (Line Feed)

variable {error : Option ParseError} {line : Line} {rest : List Line}

/-- The lines of a transaction that may get more postings. -/
structure LineGroup.Opens (group : LineGroup) (record : OpenRecord) : Prop where
  begins : group.start.isIndented = false
  header : group.start.record = .ok (.transaction { record.transaction with postings := [] })
  indented : ∀ line ∈ group.indented, line.isIndented = true
  accepted : ∀ line ∈ group.indented, line.fault? (some group.start) = none
  postings : group.indented.mapM Line.posting = .ok record.transaction.postings
  source : record.source = group.start.source
  first : record.first = group.start.number
  last : record.last = group.last.number

theorem Located.between_eq (directive : Directive) (source : String) (first last : Nat) :
    Located.between directive source first last =
      ⟨directive, first, last, if source = "<memory>" then none else some source⟩ := by
  simp [Located.between, Source.memoryName]

namespace LineGroup.Opens

variable {group : LineGroup} {record : OpenRecord}

theorem read (opens : group.Opens record) : group.read = .ok record.close := by
  rw [LineGroup.read, opens.header, opens.postings, OpenRecord.close, Located.between_eq,
    opens.source, opens.first, opens.last]
  rfl

theorem isHeader (opens : group.Opens record) : group.start.isHeader = true := by
  obtain ⟨header, -⟩ | ⟨-, other⟩ := record_cases opens.header
  · exact header
  · exact absurd rfl (other _)

theorem of_header {transaction : Transaction} (begins : line.isIndented = false)
    (read : line.record = .ok (.transaction transaction)) :
    Opens ⟨line, []⟩ ⟨transaction, line.source, line.number, line.number⟩ := by
  obtain ⟨-, transaction', same, bare⟩ | ⟨-, other⟩ := record_cases read
  case inr => exact absurd rfl (other transaction)
  cases same
  have whole : { transaction with postings := [] } = transaction := by rw [← bare]
  exact {
    begins
    header := by rw [whole]; exact read
    indented := by simp
    accepted := by simp
    postings := by rw [bare]; rfl
    source := rfl
    first := rfl
    last := rfl }

theorem add {posting : Posting} (opens : group.Opens record) (indented : line.isIndented = true)
    (read : line.posting = .ok posting) :
    Opens ⟨group.start, group.indented ++ [line]⟩ (record.add posting line.number) := by
  have isHeader := opens.isHeader
  have right : line.fault? (some group.start) = none := by
    simp [Line.fault?, indented, isHeader, read, faultOf?]
  exact {
    begins := opens.begins
    header := opens.header
    indented := by simpa [or_imp, forall_and, indented] using opens.indented
    accepted := by simpa [or_imp, forall_and, right] using opens.accepted
    postings := by
      rw [List.mapM_append, opens.postings, List.mapM_cons, read]
      rfl
    source := opens.source
    first := opens.first
    last := by simp [OpenRecord.add, LineGroup.last] }

theorem acceptLines_append (opens : group.Opens record) :
    acceptLines error none (group.lines ++ rest) =
      (acceptLines error (some group.start) rest).prepend group.lines := by
  have right : group.start.fault? none = none := fault?_of_record opens.begins opens.header
  rw [LineGroup.lines, List.cons_append, acceptLines_of_start opens.begins right,
    acceptLines_indented opens.indented opens.accepted, prepend_prepend, List.singleton_append]

end LineGroup.Opens

/-- The lines that a pass has taken since the last directive it gave. -/
inductive PendingLines : Option OpenRecord → List Line → Prop
  | nothing : PendingLines none []
  | opened {group : LineGroup} {record : OpenRecord} (opens : group.Opens record) :
    PendingLines (some record) group.lines

namespace PendingLines

variable {pending : Option OpenRecord} {before : List Line}

theorem acceptLines_append (taken : PendingLines pending before) :
    acceptLines error none (before ++ rest) =
      (acceptLines error before.head? rest).prepend before := by
  cases taken with
  | nothing => rfl
  | opened opens => exact opens.acceptLines_append

theorem acceptLines_self (taken : PendingLines pending before) :
    acceptLines error none before = ⟨before, error⟩ := by
  have whole : acceptLines error none (before ++ []) = ⟨before ++ [], error⟩ :=
    taken.acceptLines_append
  rwa [List.append_nil] at whole

theorem any_isHeader (taken : PendingLines pending before) :
    before.head?.any Line.isHeader = pending.isSome := by
  cases taken with
  | nothing => rfl
  | opened opens => exact opens.isHeader

theorem add {record : OpenRecord} {posting : Posting} (taken : PendingLines (some record) before)
    (indented : line.isIndented = true) (read : line.posting = .ok posting) :
    PendingLines (some (record.add posting line.number)) (before ++ [line]) := by
  cases taken with
  | opened opens => exact .opened (opens.add indented read)

/-- An error loses what is pending. -/
theorem ofAccepted_error (taken : PendingLines pending before) (reason : ParseError) :
    Reading.ofAccepted ⟨before, some reason⟩ = .ok { directives := [], error := some reason } := by
  cases taken with
  | nothing => exact ofAccepted_nil
  | @opened group record opens =>
    have whole : LineGroup.split (group.lines ++ []) = [group] := by
      rw [LineGroup.split_append opens.indented rfl, LineGroup.split]
    rw [List.append_nil] at whole
    have lost : LineGroup.closed (some reason) [group] = [] := by
      simp [LineGroup.closed, opens.isHeader]
    simp only [Reading.ofAccepted, whole, lost]
    rfl

theorem ofAccepted_end (taken : PendingLines pending before) :
    Reading.ofAccepted ⟨before, none⟩ =
      .ok { directives := pending.toList.map OpenRecord.close } := by
  cases taken with
  | nothing => exact ofAccepted_nil
  | @opened group record opens =>
    have whole : Reading.ofAccepted ⟨group.lines ++ [], none⟩ = _ :=
      ofAccepted_group opens.read opens.indented rfl (.inr (.inr rfl))
    rwa [List.append_nil, ofAccepted_nil] at whole

theorem ofLines_fault {fault : ParseFault} (taken : PendingLines pending before)
    (wrong : line.fault? before.head? = some fault) :
    Reading.ofLines error (before ++ line :: rest) =
      .ok { directives := [], error := some ⟨fault, some line.location⟩ } := by
  rw [Reading.ofLines, taken.acceptLines_append, acceptLines_of_fault wrong, Feed.prepend,
    List.append_nil]
  exact taken.ofAccepted_error _

/-- A line that starts a record completes what is pending. -/
theorem ofLines_start (taken : PendingLines pending before) (begins : line.isIndented = false)
    (right : line.fault? none = none) :
    Reading.ofLines error (before ++ line :: rest) =
      (Reading.ofLines error (line :: rest)).map
        (·.prepend (pending.toList.map OpenRecord.close)) := by
  cases taken with
  | nothing =>
    exact (congrFun Except.map_id (Reading.ofLines error (line :: rest))).symm
  | opened opens =>
    rw [Reading.ofLines, opens.acceptLines_append, acceptLines_of_not_indented begins]
    refine ofAccepted_group opens.read opens.indented head?_acceptLines_not_indented (.inl ?_)
    rw [acceptLines_of_start begins right]
    exact List.cons_ne_nil _ _

end PendingLines

theorem ofLines_single {directive : Directive} (begins : line.isIndented = false)
    (read : line.record = .ok directive)
    (single : ∀ transaction, directive ≠ .transaction transaction) :
    Reading.ofLines error (line :: rest) =
      (Reading.ofLines error rest).map
        (·.prepend [.between directive line.source line.number line.number]) := by
  have right : line.fault? none = none := fault?_of_record begins read
  obtain ⟨-, transaction, same, -⟩ | ⟨header, -⟩ := record_cases read
  case inl => exact absurd same (single transaction)
  have alone : acceptLines error (some line) rest = acceptLines error none rest :=
    acceptLines_of_not_header header
  have given : LineGroup.read ⟨line, []⟩ =
      .ok (.between directive line.source line.number line.number) := by
    rw [LineGroup.read, read, Located.between_eq]
    cases directive with
    | transaction transaction => exact absurd rfl (single transaction)
    | _ => rfl
  rw [Reading.ofLines, acceptLines_of_start begins right, alone]
  exact ofAccepted_group given (by simp) head?_acceptLines_not_indented (.inr (.inl header))

/-- A pass over lines gives what grouping them gives. What it holds are the lines of the last group
so far. -/
theorem ofLines_gather {pending : Option OpenRecord} {before : List Line}
    (taken : PendingLines pending before) (lines : List Line) :
    Reading.ofLines error (before ++ linesWithText lines) =
      .ok (gather pending error lines) := by
  fun_induction gather pending error lines generalizing before
  case case1 ended =>
    subst ended
    rw [linesWithText, List.filter_nil, List.append_nil, Reading.ofLines, taken.acceptLines_self]
    exact taken.ofAccepted_end
  case case2 reason ended =>
    subst ended
    rw [linesWithText, List.filter_nil, List.append_nil, Reading.ofLines, taken.acceptLines_self]
    exact taken.ofAccepted_error reason
  case case3 line rest text ih =>
    rw [linesWithText_of_empty text]
    exact ih taken
  case case4 line rest failed first more text blank =>
    rw [linesWithText_of_text text]
    refine taken.ofLines_fault ?_
    simp [Line.fault?, isIndented_of_text text, blank, taken.any_isHeader]
  case case5 line rest failed first more text blank record fault read =>
    rw [linesWithText_of_text text]
    refine taken.ofLines_fault ?_
    simp [Line.fault?, isIndented_of_text text, blank, taken.any_isHeader, Line.posting, read,
      faultOf?]
  case case6 line rest first more text blank record posting read ih =>
    have indented : line.isIndented = true := (isIndented_of_text text).trans blank
    have more := ih (taken.add indented read)
    rw [linesWithText_of_text text]
    rwa [List.append_assoc, List.singleton_append] at more
  case case7 pending line rest failed first more text unblank fault read =>
    rw [linesWithText_of_text text]
    refine taken.ofLines_fault ?_
    simp [Line.fault?, isIndented_of_text text, unblank, record_of_text text, read, faultOf?]
  case case8 pending line rest first more text unblank transaction read ih =>
    have begins : line.isIndented = false := by simp [isIndented_of_text text, unblank]
    have header : line.record = .ok (.transaction transaction) := (record_of_text text).trans read
    have right : line.fault? none = none := fault?_of_record begins header
    rw [linesWithText_of_text text, taken.ofLines_start begins right]
    have later : Reading.ofLines error (line :: linesWithText rest) = _ :=
      ih (.opened (.of_header begins header))
    rw [later, Except.map]
  case case9 pending line rest first more text unblank directive single read located ih =>
    have begins : line.isIndented = false := by simp [isIndented_of_text text, unblank]
    have record : line.record = .ok directive := (record_of_text text).trans read
    have right : line.fault? none = none := fault?_of_record begins record
    rw [linesWithText_of_text text, taken.ofLines_start begins right,
      ofLines_single begins record single]
    have later : Reading.ofLines error (linesWithText rest) = _ := ih .nothing
    rw [later, Except.map, Except.map, Reading.prepend_prepend]

/-- A reader gives the directives of the groups of its lines one call after another, then the error
of the first line at fault, and then nothing. -/
theorem Reading.ofFeed_eq_batch (feed : Feed) :
    Reading.batch feed = .ok (Reading.ofFeed feed) ∧
      ∀ n, (RecordReader.ofFeed feed).item n = (Reading.ofFeed feed).items[n]? := by
  have reader : Reading.ofFeed feed = (RecordReader.ofFeed feed).remaining :=
    RecordReader.drain_eq_remaining _
  have pass : (RecordReader.ofFeed feed).remaining = gather none feed.error feed.lines := rfl
  constructor
  · rw [reader, pass]
    exact ofLines_gather .nothing feed.lines
  · intro n
    rw [reader]
    exact RecordReader.item_eq_getElem? _ n

/-- A journal with a file in it. A line of the file is at fault, in the middle of its transaction. -/
def rentAndShop : Feed where
  lines := [⟨"<memory>", 1, "2013/3/1 Rent".toList⟩, ⟨"<memory>", 2, "\tFlat\t$5".toList⟩,
    ⟨"<memory>", 3, []⟩, ⟨"<memory>", 4, "\tBank".toList⟩, ⟨"./shop", 1, "N AU".toList⟩,
    ⟨"./shop", 2, "2013/3/2 Tea".toList⟩, ⟨"./shop", 3, "\tTea\t$1".toList⟩,
    ⟨"./shop", 4, "Bank".toList⟩, ⟨"<memory>", 6, "N EUR".toList⟩]

/-- The transaction that is complete, the directive in the file, and the error there. -/
def rentAndShopItems : List Item :=
  [.ok ⟨.transaction ⟨⟨2013, 3, 1, by decide⟩, "Rent",
      [⟨["Flat"], some (.single ⟨"$", true⟩ (.spelled "5"))⟩, ⟨["Bank"], none⟩]⟩, 1, 4, none⟩,
    .ok ⟨.ignoreSymbol "AU", 1, 1, some "./shop"⟩,
    .error ⟨.unrecognizedDirective 'B', some ⟨"./shop", 4⟩⟩]

theorem Reading.ofFeed_eq_batch_rentAndShop :
    (Reading.ofFeed rentAndShop).items = rentAndShopItems ∧
      ∀ n, (RecordReader.ofFeed rentAndShop).item n = rentAndShopItems[n]? := by
  obtain ⟨batch, items⟩ := Reading.ofFeed_eq_batch rentAndShop
  have grouped : (Reading.batch rentAndShop).map Reading.items = .ok rentAndShopItems := by
    decide +kernel
  rw [batch] at grouped
  have given : (Reading.ofFeed rentAndShop).items = rentAndShopItems := Except.ok.inj grouped
  refine ⟨given, fun n => ?_⟩
  rw [items, given]

end DoubleEntry

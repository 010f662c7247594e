import DoubleEntry.Proofs.Record.Legible

/-! The lines that a journal shows of a transaction, read again. Where no name has a comment marker
in it, each line is read as what it shows. -/

namespace DoubleEntry

open Text Source

/-! What is shown. -/

/-- No account name and no commodity name has a comment marker in it. -/
structure Posting.Plain (posting : Posting) : Prop where
  account : Unmarked posting.accountName.toList
  commodities : ∀ amounts ∈ posting.amounts, ∀ entry ∈ amounts.entries,
    Unmarked entry.1.name.toList

/-- No text of the transaction has a comment marker in it. -/
structure Transaction.Plain (transaction : Transaction) : Prop where
  description : Unmarked transaction.description.toList
  postings : ∀ posting ∈ transaction.postings, posting.Plain

def Transaction.IsCents (transaction : Transaction) : Prop :=
  ∀ posting ∈ transaction.postings, ∀ amounts ∈ posting.amounts, ∀ entry ∈ amounts.entries,
    entry.2.IsCents

theorem toList_blanks (count : Nat) : (blanks count).toList = List.replicate count ' ' :=
  String.toList_ofList

theorem eq_of_mem_blanks {count : Nat} {c : Char} (member : c ∈ (blanks count).toList) :
    c = ' ' := by
  rw [toList_blanks] at member
  exact List.eq_of_mem_replicate member

theorem isBlank_of_mem_blanks {count : Nat} : ∀ c ∈ (blanks count).toList, isBlank c = true := by
  intro c member
  rw [eq_of_mem_blanks member]
  decide

/-! Postings. -/

/-- The columns of a posting line behind the account. -/
def columnsBehind (posting : Posting) (amounts : String) : List Char :=
  (blanks (25 - posting.accountName.length)).toList ++
    '\t' :: ((blanks (20 - amounts.length)).toList ++ amounts.toList)

/-- The amounts of a posting as its line shows them. -/
def Posting.amountsText (posting : Posting) : String :=
  " ".intercalate ((posting.amounts.map (·.texts)).getD [])

theorem Posting.amountsText_of_elided {posting : Posting} (elided : posting.amounts = none) :
    posting.amountsText = "" := by
  rw [amountsText, elided]
  rfl

theorem Posting.amountsText_of_single {posting : Posting} {commodity : Commodity}
    {number : Decimal} (given : posting.amounts = some (Balance.single commodity number)) :
    posting.amountsText = commodity.format number := by
  rw [amountsText, given]
  exact String.intercalate_singleton

theorem toList_line (posting : Posting) :
    posting.line.toList = '\t' :: (posting.accountName.toList ++
      columnsBehind posting posting.amountsText) := by
  simp [Posting.line, padRight, padLeft, columnsBehind, Posting.amountsText, String.toList_append]

theorem getLast?_columnsBehind (posting : Posting) {amounts : String}
    (shows : amounts.toList ≠ []) :
    (columnsBehind posting amounts).getLast? = amounts.toList.getLast? := by
  rw [columnsBehind, List.getLast?_append_of_ne_nil _ (List.cons_ne_nil _ _),
    List.getLast?_cons_of_ne_nil (by simp [shows]), List.getLast?_append_of_ne_nil _ shows]

theorem splitPosting_columnsBehind (posting : Posting) (amounts : String) :
    splitPosting (columnsBehind posting amounts) = ([], columnsBehind posting amounts) := by
  rw [columnsBehind, toList_blanks]
  cases 25 - posting.accountName.length with
  | zero => rfl
  | succ count =>
    rw [List.replicate_succ, List.cons_append, splitPosting_cons, if_pos]
    cases count <;> rfl

theorem trim_columnsBehind (posting : Posting) (amounts : String) :
    trim (columnsBehind posting amounts) = trim amounts.toList := by
  have blank : ∀ c ∈ (blanks (25 - posting.accountName.length)).toList ++
      '\t' :: (blanks (20 - amounts.length)).toList, isBlank c = true := by
    intro c member
    rcases List.mem_append.mp member with early | late
    · exact isBlank_of_mem_blanks c early
    · rcases List.mem_cons.mp late with rfl | late
      · decide
      · exact isBlank_of_mem_blanks c late
  have columns : columnsBehind posting amounts =
      ((blanks (25 - posting.accountName.length)).toList ++
        '\t' :: (blanks (20 - amounts.length)).toList) ++ amounts.toList := by
    simp [columnsBehind]
  rw [columns, trim_append_of_blank blank]

/-- A posting whose line can be read: no segment of the account has a colon in it or blanks at its
ends, the account does not end within its name, and a name can stand beside the amount. -/
structure Posting.Readable (posting : Posting) : Prop where
  segments : ∀ segment ∈ posting.account.map String.toList, Trimmed segment ∧ ':' ∉ segment
  named : posting.accountName.toList ≠ []
  unbroken : Unbroken posting.accountName.toList
  amounts : ∀ amounts ∈ posting.amounts, ∃ commodity number,
    amounts = Balance.single commodity number ∧ commodity.Legible

theorem readPosting_trimEnd (line : List Char) : readPosting (trimEnd line) = readPosting line := by
  rw [readPosting, trim_trimEnd]
  rfl

namespace Posting

variable {posting : Posting}

theorem Legible.readable (legible : posting.Legible) : posting.Readable where
  segments := legible.segments
  named := legible.named
  unbroken := legible.unbroken
  amounts amounts given := by
    obtain ⟨commodity, number, same, named, _⟩ := legible.amounts amounts given
    exact ⟨commodity, number, same, named⟩

theorem Readable.trimmed_accountName (readable : posting.Readable) :
    Trimmed posting.accountName.toList := by
  rw [toList_accountName]
  exact trimmed_intercalate (by decide) fun segment member => (readable.segments segment member).1

/-- The segments of an account name are those that it is made of. -/
theorem Readable.accountOfName_accountName (readable : posting.Readable) :
    accountOfName (trim posting.accountName.toList) = posting.account := by
  have nonempty : posting.account.map String.toList ≠ [] := by
    intro nothing
    refine readable.named ?_
    rw [toList_accountName, nothing]
    rfl
  have segments : (trim posting.accountName.toList).splitOn ':' =
      posting.account.map String.toList := by
    rw [trim_of_trimmed readable.trimmed_accountName, toList_accountName,
      List.splitOn_intercalate ':' (fun segment member => (readable.segments segment member).2)
        nonempty]
  rw [accountOfName, segments, List.map_map]
  conv_rhs => rw [← List.map_id posting.account]
  refine List.map_congr_left fun segment member => ?_
  have trimmed := (readable.segments _ (List.mem_map_of_mem member)).1
  simp [trim_of_trimmed trimmed]

theorem Readable.trim_line (readable : posting.Readable) :
    trim posting.line.toList = trimEnd (posting.accountName.toList ++
      columnsBehind posting posting.amountsText) := by
  have tab : ∀ c ∈ ['\t'], isBlank c = true := List.forall_mem_singleton.mpr rfl
  rw [toList_line, ← List.singleton_append, trim_append_of_blank tab]
  cases name : posting.accountName.toList with
  | nil => exact absurd name readable.named
  | cons c rest =>
    have solid := readable.trimmed_accountName.starts c (by rw [name]; rfl)
    rw [List.cons_append, trim_cons_of_not_blank solid, trimEnd_cons_of_not_blank solid]

/-- What is read where a posting is shown. The account stays, and so do elided amounts; a commodity
is read as far as it is read again, with the same value. -/
structure ReadsAs (posting again : Posting) : Prop where
  account : again.account = posting.account
  elided : posting.amounts = none → again.amounts = none
  amounts : ∀ commodity number, posting.amounts = some (Balance.single commodity number) →
    ∃ number', again.amounts = some (Balance.single commodity.reread number') ∧
      number'.value = number.value

theorem Readable.readPosting_elided (readable : posting.Readable)
    (elided : posting.amounts = none) : readPosting posting.line.toList = .ok posting := by
  have trimmed := readable.trimmed_accountName
  have blank : ∀ c ∈ columnsBehind posting "", isBlank c = true := by
    intro c member
    simp only [columnsBehind, List.mem_append, List.mem_cons] at member
    rcases member with early | rfl | late | last
    · exact isBlank_of_mem_blanks c early
    · decide
    · exact isBlank_of_mem_blanks c late
    · cases last
  have line : trim posting.line.toList = posting.accountName.toList := by
    rw [readable.trim_line, amountsText_of_elided elided]
    exact (trimEnd_append_of_blank blank).trans (trimEnd_of_trimmed trimmed)
  have split : splitPosting posting.accountName.toList = (posting.accountName.toList, []) := by
    have nothing : splitPosting [] = ([], []) := rfl
    have cut := splitPosting_of_unbroken readable.unbroken trimmed.ends nothing
    rwa [List.append_nil] at cut
  simp only [readPosting, line, split, readable.accountOfName_accountName]
  obtain ⟨account, amounts⟩ := posting
  cases elided
  rfl

theorem Readable.readPosting_single (readable : posting.Readable) {commodity : Commodity}
    {number : Decimal} (given : posting.amounts = some (Balance.single commodity number))
    (named : commodity.Legible) :
    ∃ number', readPosting posting.line.toList =
        .ok ⟨posting.account, some (Balance.single commodity.reread number')⟩ ∧
      number'.value = roundedTo number.value Commodity.defaultPlaces := by
  have trimmed := readable.trimmed_accountName
  have nonempty := Commodity.trim_format_ne_nil number Commodity.defaultPlaces named
  have shows := Commodity.toList_format_ne_nil number Commodity.defaultPlaces named
  have ends : ∀ c ∈ (columnsBehind posting (commodity.format number)).getLast?,
      isBlank c = false := by
    rw [getLast?_columnsBehind posting shows]
    exact Commodity.ends_format number Commodity.defaultPlaces named
  have line : trim posting.line.toList = posting.accountName.toList ++
      columnsBehind posting (commodity.format number) := by
    rw [readable.trim_line, amountsText_of_single given]
    refine trimEnd_of_trimmed (.append trimmed.starts ?_ ends ?_)
    · exact fun none => absurd none readable.named
    · exact fun _ => trimmed.ends
  have split := splitPosting_of_unbroken readable.unbroken trimmed.ends
    (splitPosting_columnsBehind posting (commodity.format number))
  obtain ⟨amount, read, value, same⟩ :=
    Commodity.readAmount_format number Commodity.defaultPlaces named
  have notElided : (trim (commodity.format number).toList).isEmpty = false := by
    simpa using nonempty
  have reread : amount.commodity.getD .bare = commodity.reread := by
    rw [same, Commodity.getD_written?]
  refine ⟨amount.number, ?_, value⟩
  simp only [readPosting, line, split, readable.accountOfName_accountName, trim_columnsBehind,
    notElided, readAmount_trim, read, ← reread]
  rfl

theorem Readable.readPosting_line (readable : posting.Readable)
    (exact : ∀ amounts ∈ posting.amounts, ∀ entry ∈ amounts.entries, entry.2.IsCents) :
    ∃ again, readPosting posting.line.toList = .ok again ∧ posting.ReadsAs again := by
  cases given : posting.amounts with
  | none =>
    refine ⟨posting, readable.readPosting_elided given, rfl, fun _ => given, ?_⟩
    intro commodity number other
    rw [given] at other
    cases other
  | some amounts =>
    obtain ⟨commodity, number, rfl, named⟩ := readable.amounts amounts given
    obtain ⟨number', read, value⟩ := readable.readPosting_single given named
    have cents := exact _ given (commodity, number) (List.mem_singleton_self _)
    refine ⟨_, read, rfl, fun none => ?_, fun commodity' number'' other => ?_⟩
    · rw [given] at none
      cases none
    · rw [given] at other
      have entries := congrArg SortedMap.entries (Option.some.inj other)
      cases entries
      exact ⟨number', rfl, value.trans cents.hasPlaces.roundedTo_value⟩

end Posting

/-! Headers. -/

namespace Transaction

variable {transaction : Transaction}

theorem toList_header (transaction : Transaction) :
    transaction.header.toList =
      transaction.dateText.toList ++ ' ' :: transaction.description.toList := by
  simp [header, String.toList_append]

theorem solid_dateText (date : transaction.date.HasFourDigits) :
    ∀ c ∈ transaction.dateText.toList, isBlank c = false := by
  intro c member
  rcases Date.characters_text date c member with digit | rfl
  · exact not_isBlank_of_isDigit digit
  · decide

theorem trim_header (date : transaction.date.HasFourDigits)
    (description : Trimmed transaction.description.toList) :
    ∃ rest, trim transaction.header.toList = transaction.dateText.toList ++ rest ∧
      (∀ c ∈ rest.head?, (!isBlank c) = false) ∧
      trimStart rest = transaction.description.toList := by
  have trimmed := trimmed_of_solid (solid_dateText date)
  rw [toList_header]
  by_cases nothing : transaction.description.toList = []
  · refine ⟨[], ?_, by simp, by rw [nothing]; rfl⟩
    have blank : ∀ c ∈ [' '], isBlank c = true := List.forall_mem_singleton.mpr rfl
    rw [nothing, ← trim_trimEnd, trimEnd_append_of_blank blank, trim_trimEnd,
      trim_of_trimmed trimmed, List.append_nil]
  · refine ⟨' ' :: transaction.description.toList, ?_, by simp [isBlank], ?_⟩
    · obtain ⟨c, more, text, _⟩ := Date.head_text date
      have dated : transaction.dateText.toList ≠ [] := by
        rw [dateText, text]
        exact List.cons_ne_nil _ _
      refine trim_of_trimmed (.append trimmed.starts (fun none => absurd none dated) ?_ ?_)
      · rw [List.getLast?_cons_of_ne_nil nothing]
        exact description.ends
      · exact fun none => absurd none (List.cons_ne_nil _ _)
    · exact trimStart_of_starts description.starts

theorem readHeader_header (date : transaction.date.HasFourDigits)
    (description : Trimmed transaction.description.toList) :
    readHeader transaction.header.toList = .ok { transaction with postings := [] } := by
  obtain ⟨rest, line, stops, described⟩ := trim_header date description
  have inside : ∀ c ∈ transaction.dateText.toList, (!isBlank c) = true := by
    intro c member
    rw [solid_dateText date c member]
    rfl
  have dated : Date.ofText? transaction.dateText.toList = some transaction.date :=
    Date.ofText?_text date
  rw [readHeader_eq, line, takeWhile_append_of_stop inside stops,
    dropWhile_append_of_stop inside stops, dated, described, String.ofList_toList]

theorem readHeader_trimEnd (line : List Char) : readHeader (trimEnd line) = readHeader line := by
  rw [readHeader_eq, readHeader_eq, trim_trimEnd]

/-- What is read where a transaction is shown. -/
structure ReadsAs (transaction again : Transaction) : Prop where
  date : again.date = transaction.date
  description : again.description = transaction.description
  postings : List.Forall₂ Posting.ReadsAs transaction.postings again.postings

/-- The lines of a transaction without blanks at their ends. -/
def shownTexts (transaction : Transaction) : List (List Char) :=
  transaction.lines.map fun line => trimEnd line.toList

end Transaction

/-! A pass over shown lines. -/

variable {line : Line} (error : Option ParseError) (rest : List Line)

theorem Posting.Readable.trimEnd_line {posting : Posting} (readable : posting.Readable) :
    ∃ more, trimEnd posting.line.toList = '\t' :: more := by
  rw [toList_line]
  cases name : posting.accountName.toList with
  | nil => exact absurd name readable.named
  | cons c more =>
    have solid := readable.trimmed_accountName.starts c (by rw [name]; rfl)
    rw [List.cons_append, trimEnd, trimEnd_cons_of_not_blank solid]
    exact ⟨_, rfl⟩

theorem Transaction.Legible.trimEnd_header {transaction : Transaction}
    (legible : transaction.Legible) :
    ∃ first more, trimEnd transaction.header.toList = first :: more ∧ first.isDigit = true := by
  obtain ⟨c, more, text, digit⟩ := Date.head_text legible.date
  rw [Transaction.toList_header, Transaction.dateText, text, List.cons_append,
    trimEnd_cons_of_not_blank (not_isBlank_of_isDigit digit)]
  exact ⟨c, _, rfl, digit⟩

theorem gather_posting {posting : Posting} (legible : posting.Legible)
    (exact : ∀ amounts ∈ posting.amounts, ∀ entry ∈ amounts.entries, entry.2.IsCents)
    (text : line.text = trimEnd posting.line.toList) (record : OpenRecord) :
    ∃ again, posting.ReadsAs again ∧ gather (some record) error (line :: rest) =
      gather (some (record.add again line.number)) error rest := by
  obtain ⟨again, read, readsAs⟩ := legible.readable.readPosting_line exact
  obtain ⟨more, starts⟩ := legible.readable.trimEnd_line
  have blank : isBlank '\t' = true := by decide
  refine ⟨again, readsAs, ?_⟩
  rw [← readPosting_trimEnd] at read
  rw [starts] at text read
  simp only [gather, text, blank, if_true, read]

/-- Where the postings of a transaction are shown, they are read one after another. -/
theorem gather_postings {postings : List Posting} {lines : List Line}
    (legible : ∀ posting ∈ postings, posting.Legible)
    (exact : ∀ posting ∈ postings, ∀ amounts ∈ posting.amounts, ∀ entry ∈ amounts.entries,
      entry.2.IsCents)
    (texts : lines.map Line.text = postings.map fun posting => trimEnd posting.line.toList)
    (record : OpenRecord) :
    ∃ again record', List.Forall₂ Posting.ReadsAs postings again ∧
      record'.transaction =
        { record.transaction with postings := record.transaction.postings ++ again } ∧
      gather (some record) error (lines ++ rest) = gather (some record') error rest := by
  induction postings generalizing lines record with
  | nil =>
    rw [List.map_nil, List.map_eq_nil_iff] at texts
    refine ⟨[], record, .nil, ?_, by rw [texts]; rfl⟩
    rw [List.append_nil]
  | cons posting postings ih =>
    rw [List.forall_mem_cons] at legible exact
    rw [List.map_cons] at texts
    obtain ⟨line, lines', rfl, text, texts⟩ := List.map_eq_cons_iff.mp texts
    obtain ⟨again, readsAs, step⟩ := gather_posting error (lines' ++ rest) legible.1 exact.1
      text record
    obtain ⟨later, record', readsAs', whole, run⟩ :=
      ih legible.2 exact.2 texts (record.add again line.number)
    refine ⟨again :: later, record', .cons readsAs readsAs', ?_, step.trans run⟩
    rw [whole, OpenRecord.add, List.append_assoc, List.singleton_append]

theorem gather_header {transaction : Transaction} (legible : transaction.Legible)
    (text : line.text = trimEnd transaction.header.toList) (pending : Option OpenRecord) :
    gather pending error (line :: rest) =
      (gather (some ⟨{ transaction with postings := [] }, line.source, line.number, line.number⟩)
        error rest).prepend (pending.toList.map OpenRecord.close) := by
  have read := Transaction.readHeader_header legible.date legible.description
  rw [← Transaction.readHeader_trimEnd] at read
  obtain ⟨first, more, starts, digit⟩ := legible.trimEnd_header
  rw [starts] at text read
  have start : readStart first (first :: more) =
      .ok (.transaction { transaction with postings := [] }) := by
    unfold readStart
    rw [if_pos digit, read]
    rfl
  simp only [gather, text, not_isBlank_of_isDigit digit, start]
  rfl

/-- Where transactions are shown one after another, they are read one after another. -/
theorem gather_shownTexts {transactions : List Transaction} {lines : List Line}
    (legible : ∀ transaction ∈ transactions, transaction.Legible)
    (exact : ∀ transaction ∈ transactions, transaction.IsCents)
    (texts : lines.map Line.text = transactions.flatMap Transaction.shownTexts)
    (pending : Option OpenRecord) :
    ∃ again, List.Forall₂ Transaction.ReadsAs transactions again ∧
      gathered pending none lines = pending.toList.map OpenRecord.transaction ++ again ∧
      (gather pending none lines).error = none := by
  -- each header closes the transaction before it, so the one that is open varies
  induction transactions generalizing lines pending with
  | nil =>
    rw [List.flatMap_nil, List.map_eq_nil_iff] at texts
    refine ⟨[], .nil, ?_, by rw [texts]; rfl⟩
    rw [texts, List.append_nil, gathered, gather, transactionsOf_close]
  | cons transaction transactions ih =>
    rw [List.forall_mem_cons] at legible exact
    rw [List.flatMap_cons, List.map_eq_append_iff] at texts
    obtain ⟨own, later, rfl, ownTexts, laterTexts⟩ := texts
    rw [Transaction.shownTexts, Transaction.lines, List.map_cons, List.map_map,
      List.map_eq_cons_iff] at ownTexts
    obtain ⟨line, postingLines, rfl, text, postingTexts⟩ := ownTexts
    let opened : OpenRecord :=
      ⟨{ transaction with postings := [] }, line.source, line.number, line.number⟩
    obtain ⟨postings, record, readsAs, whole, run⟩ :=
      gather_postings none later legible.1.postings exact.1 postingTexts opened
    obtain ⟨again, readsAs', step, ended⟩ := ih legible.2 exact.2 laterTexts (some record)
    have start := gather_header none (postingLines ++ later) legible.1 text pending
    rw [run] at start
    refine ⟨record.transaction :: again, .cons ?_ readsAs', ?_, ?_⟩
    · rw [whole]
      exact ⟨rfl, rfl, readsAs⟩
    · rw [List.cons_append, gathered, start, Reading.prepend, transactionsOf_append,
        transactionsOf_close]
      exact congrArg (_ ++ ·) step
    · rw [List.cons_append, start]
      exact ended

end DoubleEntry

import DoubleEntry.Proofs.Record.Marks
import DoubleEntry.Report

/-! Transactions printed as a journal and read again. They come back the same exactly if no text of
theirs has a comment marker in it and no name in front of a number starts with a blank. -/

namespace DoubleEntry

open Text Source

/-! The lines of a printed journal. -/

/-- The lines of transactions with an empty line between them. -/
def printedLines (transactions : List Transaction) : List String :=
  [""].intercalate (transactions.map Transaction.lines)

theorem printedLines_cons (transaction next : Transaction) (rest : List Transaction) :
    printedLines (transaction :: next :: rest) =
      transaction.lines ++ ("" :: printedLines (next :: rest)) := by
  simp [printedLines]

theorem printedLines_singleton (transaction : Transaction) :
    printedLines [transaction] = transaction.lines := by
  simp [printedLines]

theorem Transaction.lines_ne_nil (transaction : Transaction) : transaction.lines ≠ [] :=
  List.cons_ne_nil _ _

theorem printedLines_ne_nil (transaction : Transaction) (rest : List Transaction) :
    printedLines (transaction :: rest) ≠ [] := by
  cases rest with
  | nil => rw [printedLines_singleton]; exact transaction.lines_ne_nil
  | cons next rest => rw [printedLines_cons]; simp

theorem printTransactions_eq (transactions : List Transaction) :
    printTransactions transactions = joinLines (printedLines transactions) := by
  rw [printTransactions, joinLines]
  induction transactions with
  | nil => rfl
  | cons transaction rest ih =>
    cases rest with
    | nil =>
      rw [printedLines_singleton, List.map_singleton, String.intercalate_singleton]
      rfl
    | cons next rest =>
      have later := printedLines_ne_nil next rest
      rw [List.map_cons, String.intercalate_cons_of_ne_nil (by simp), ih, printedLines_cons,
        String.intercalate_append_of_ne_nil transaction.lines_ne_nil (by simp),
        String.intercalate_cons_of_ne_nil later, Transaction.text, joinLines]
      simp [String.append_assoc, ← String.toList_inj]

/-- What holds of the lines of each transaction, and of an empty line, holds of all printed lines. -/
theorem forall_mem_printedLines {holds : String → Prop} {transactions : List Transaction}
    (empty : holds "") (each : ∀ transaction ∈ transactions, ∀ line ∈ transaction.lines, holds line) :
    ∀ line ∈ printedLines transactions, holds line := by
  induction transactions with
  | nil => exact fun _ member => nomatch member
  | cons transaction rest ih =>
    rw [List.forall_mem_cons] at each
    cases rest with
    | nil => rw [printedLines_singleton]; exact each.1
    | cons next rest =>
      rw [printedLines_cons, List.forall_mem_append, List.forall_mem_cons]
      exact ⟨each.1, empty, ih each.2⟩

/-- A line that is cut out of a printed journal as it is, and that names no files. -/
structure Whole (line : List Char) : Prop where
  oneLine : '\n' ∉ line
  noReturn : line.getLast? ≠ some '\r'
  plain : includeTargets? line = none

theorem whole_nil : Whole [] where
  oneLine := List.not_mem_nil
  noReturn := by simp
  plain := rfl

theorem ne_return_of_ends {text : List Char} (ends : ∀ c ∈ text.getLast?, isBlank c = false) :
    text.getLast? ≠ some '\r' := by
  intro returns
  have solid := ends '\r' returns
  cases solid

theorem Transaction.Legible.whole_header {transaction : Transaction}
    (legible : transaction.Legible) : Whole transaction.header.toList where
  oneLine := by
    rw [← mem_specials_newline_iff, legible.specials_header, mem_specials_newline_iff]
    exact legible.oneLine
  noReturn := by
    rw [Transaction.toList_header, List.getLast?_append_of_ne_nil _ (List.cons_ne_nil _ _)]
    by_cases nothing : transaction.description.toList = []
    · rw [nothing]
      decide
    · rw [List.getLast?_cons_of_ne_nil nothing]
      exact ne_return_of_ends legible.description.ends
  plain := by
    obtain ⟨c, rest, text, digit⟩ := Date.head_text legible.date
    rw [Transaction.toList_header, Transaction.dateText, text, List.cons_append]
    exact includeTargets?_of_isDigit digit

theorem Posting.Legible.whole_line {posting : Posting} (legible : posting.Legible) :
    Whole posting.line.toList where
  oneLine := by
    rw [← mem_specials_newline_iff, legible.specials_line, List.mem_append,
      mem_specials_newline_iff, mem_specials_newline_iff, not_or]
    refine ⟨legible.oneLine, ?_⟩
    cases given : posting.amounts with
    | none => rw [Posting.commodityNames_of_elided given]; exact List.not_mem_nil
    | some amounts =>
      obtain ⟨commodity, number, rfl, _, oneLine⟩ := legible.amounts amounts given
      rwa [Posting.commodityNames_of_single given]
  noReturn := by
    rw [toList_line, List.getLast?_cons_of_ne_nil (by simp [legible.named]),
      List.getLast?_append_of_ne_nil _ (by simp [columnsBehind])]
    cases given : posting.amounts with
    | none =>
      rw [Posting.amountsText_of_elided given, columnsBehind,
        List.getLast?_append_of_ne_nil _ (List.cons_ne_nil _ _)]
      decide
    | some amounts =>
      obtain ⟨commodity, number, rfl, named, _⟩ := legible.amounts amounts given
      rw [Posting.amountsText_of_single given,
        getLast?_columnsBehind posting (Commodity.toList_format_ne_nil number _ named)]
      exact ne_return_of_ends (Commodity.ends_format number _ named)
  plain := by
    rw [toList_line]
    rfl

theorem Transaction.Legible.whole_lines {transaction : Transaction}
    (legible : transaction.Legible) : ∀ line ∈ transaction.lines, Whole line.toList := by
  rw [Transaction.lines, List.forall_mem_cons]
  refine ⟨legible.whole_header, fun line member => ?_⟩
  obtain ⟨posting, inside, rfl⟩ := List.mem_map.mp member
  exact (legible.postings posting inside).whole_line

theorem getLast?_printedLines {transactions : List Transaction}
    (legible : ∀ transaction ∈ transactions, transaction.Legible) :
    ∀ line ∈ (printedLines transactions).getLast?, line.toList ≠ [] := by
  induction transactions with
  | nil => exact fun _ member => nomatch member
  | cons transaction rest ih =>
    rw [List.forall_mem_cons] at legible
    cases rest with
    | nil =>
      rw [printedLines_singleton]
      intro line last
      rcases List.mem_cons.mp (List.mem_of_mem_getLast? last) with rfl | member
      · obtain ⟨first, more, text, _⟩ := Date.head_text legible.1.date
        rw [Transaction.toList_header]
        simp
      · obtain ⟨posting, _, rfl⟩ := List.mem_map.mp member
        rw [toList_line]
        exact List.cons_ne_nil _ _
    | cons next rest =>
      have later := printedLines_ne_nil next rest
      rw [printedLines_cons, List.getLast?_append_of_ne_nil _ (List.cons_ne_nil _ _),
        List.getLast?_cons_of_ne_nil later]
      exact ih legible.2

theorem texts_printed (fs : FileSystem) {transactions : List Transaction}
    (legible : ∀ transaction ∈ transactions, transaction.Legible) :
    (Feed.ofText fs (printTransactions transactions).toList ".").meaningful.lines.map Line.text =
        meaningfulTexts ((printedLines transactions).map String.toList) ∧
      (Feed.ofText fs (printTransactions transactions).toList ".").meaningful.error = none := by
  have whole : ∀ line ∈ printedLines transactions, Whole line.toList :=
    forall_mem_printedLines whole_nil fun transaction member =>
      (legible transaction member).whole_lines
  have joined : (printTransactions transactions).toList =
      ['\n'].intercalate ((printedLines transactions).map String.toList) := by
    rw [printTransactions_eq, joinLines, String.toList_intercalate]
    rfl
  have cut : Text.lines (printTransactions transactions).toList =
      (printedLines transactions).map String.toList := by
    rw [joined]
    refine lines_intercalate ?_ ?_ ?_
    · exact List.forall_mem_map.mpr fun line member => (whole line member).oneLine
    · exact List.forall_mem_map.mpr fun line member => (whole line member).noReturn
    · intro text last
      rw [List.getLast?_map] at last
      obtain ⟨line, member, rfl⟩ := Option.map_eq_some_iff.mp last
      exact getLast?_printedLines legible line member
  have plain : ∀ line ∈ Text.lines (printTransactions transactions).toList,
      includeTargets? line = none := by
    rw [cut]
    exact List.forall_mem_map.mpr fun line member => (whole line member).plain
  obtain ⟨texts, ended⟩ := @texts_ofText fs _ "." plain
  exact ⟨by rw [texts_meaningful, texts, cut], ended⟩

/-! Without markers. -/

theorem Posting.plain_iff {posting : Posting} :
    posting.Plain ↔
      Unmarked posting.accountName.toList ∧ Unmarked posting.commodityNames := by
  have names : (∀ amounts ∈ posting.amounts, ∀ entry ∈ amounts.entries,
      Unmarked entry.1.name.toList) ↔ Unmarked posting.commodityNames := by
    rw [commodityNames]
    cases posting.amounts with
    | none => simp [Unmarked]
    | some amounts =>
      rw [Option.map_some, Option.getD_some, Unmarked, List.forall_mem_flatMap]
      exact ⟨fun each => each amounts rfl, fun each _ given => Option.mem_some_iff.mp given ▸ each⟩
  rw [← names]
  exact ⟨fun plain => ⟨plain.account, plain.commodities⟩, fun unmarked =>
    ⟨unmarked.1, unmarked.2⟩⟩

theorem Transaction.Legible.plain_iff {transaction : Transaction}
    (legible : transaction.Legible) :
    transaction.Plain ↔ ∀ line ∈ transaction.lines, Unmarked line.toList := by
  have header : Unmarked transaction.header.toList ↔
      Unmarked transaction.description.toList := by
    rw [← unmarked_specials_iff, legible.specials_header, unmarked_specials_iff]
  have line {posting : Posting} (member : posting ∈ transaction.postings) :
      Unmarked posting.line.toList ↔ posting.Plain := by
    rw [← unmarked_specials_iff, (legible.postings posting member).specials_line,
      unmarked_append, unmarked_specials_iff, unmarked_specials_iff, Posting.plain_iff]
  rw [Transaction.lines, List.forall_mem_cons, header, List.forall_mem_map]
  constructor
  · intro plain
    exact ⟨plain.description, fun posting member => (line member).mpr (plain.postings posting member)⟩
  · rintro ⟨description, postings⟩
    exact ⟨description, fun posting member => (line member).mp (postings posting member)⟩

theorem Transaction.Legible.meaningfulTexts_lines {transaction : Transaction}
    (legible : transaction.Legible) (plain : transaction.Plain) :
    meaningfulTexts (transaction.lines.map String.toList) = transaction.shownTexts := by
  have unmarked := legible.plain_iff.mp plain
  have stripped : (transaction.lines.map String.toList).map stripComment =
      transaction.shownTexts := by
    rw [List.map_map, shownTexts]
    exact List.map_congr_left fun line member => stripComment_of_unmarked (unmarked line member)
  rw [meaningfulTexts, stripped, List.filter_eq_self]
  intro text member
  rw [shownTexts, Transaction.lines, List.map_cons, List.map_map] at member
  rcases List.mem_cons.mp member with rfl | inside
  · obtain ⟨first, more, starts, _⟩ := legible.trimEnd_header
    rw [starts]
    rfl
  · obtain ⟨posting, shown, rfl⟩ := List.mem_map.mp inside
    obtain ⟨more, starts⟩ := (legible.postings posting shown).readable.trimEnd_line
    simp [starts]

theorem meaningfulTexts_printedLines {transactions : List Transaction}
    (legible : ∀ transaction ∈ transactions, transaction.Legible)
    (plain : ∀ transaction ∈ transactions, transaction.Plain) :
    meaningfulTexts ((printedLines transactions).map String.toList) =
      transactions.flatMap Transaction.shownTexts := by
  induction transactions with
  | nil => rfl
  | cons transaction rest ih =>
    rw [List.forall_mem_cons] at legible plain
    have own := legible.1.meaningfulTexts_lines plain.1
    cases rest with
    | nil =>
      rw [printedLines_singleton, own]
      exact (List.append_nil _).symm
    | cons next rest =>
      rw [printedLines_cons, List.map_append, meaningfulTexts_append, own, List.flatMap_cons,
        ← ih legible.2 plain.2]
      rfl

/-- Without markers, what is printed is read again, as far as names are read again. -/
theorem parseText_printed (fs : FileSystem) {transactions : List Transaction}
    (legible : ∀ transaction ∈ transactions, transaction.Legible)
    (exact : ∀ transaction ∈ transactions, transaction.IsCents)
    (plain : ∀ transaction ∈ transactions, transaction.Plain) :
    ∃ directives, parseText fs (printTransactions transactions) = .ok directives ∧
      List.Forall₂ Transaction.ReadsAs transactions (transactionsOf directives) := by
  obtain ⟨texts, ended⟩ := texts_printed fs legible
  rw [meaningfulTexts_printedLines legible plain] at texts
  obtain ⟨again, readsAs, given, done⟩ := gather_shownTexts legible exact texts none
  refine ⟨_, ?_, by rw [← gathered, given]; exact readsAs⟩
  rw [parseText, Reading.ofText, ofFeed_eq_gather, ended, Reading.toExcept, done]

/-! With markers. -/

theorem totalMarks_printedLines {transactions : List Transaction}
    (legible : ∀ transaction ∈ transactions, transaction.Legible) :
    totalMarks ((printedLines transactions).map String.toList) =
      transactionMarks transactions := by
  induction transactions with
  | nil => rfl
  | cons transaction rest ih =>
    rw [List.forall_mem_cons] at legible
    have own := legible.1.totalMarks_lines
    have sum : transactionMarks (transaction :: rest) =
        transaction.marks + transactionMarks rest := rfl
    cases rest with
    | nil =>
      rw [printedLines_singleton, own, sum]
      rfl
    | cons next rest =>
      have empty : totalMarks (("" :: printedLines (next :: rest)).map String.toList) =
          totalMarks ((printedLines (next :: rest)).map String.toList) := by
        rw [List.map_cons, totalMarks_cons]
        exact Nat.zero_add _
      rw [printedLines_cons, List.map_append, totalMarks_append, own, sum, empty, ih legible.2]

theorem mem_printedLines {transactions : List Transaction} {transaction : Transaction}
    (member : transaction ∈ transactions) :
    ∀ line ∈ transaction.lines, line ∈ printedLines transactions := by
  induction transactions with
  | nil => cases member
  | cons first rest ih =>
    intro line inside
    cases rest with
    | nil =>
      rw [List.mem_singleton.mp member] at inside
      rwa [printedLines_singleton]
    | cons next rest =>
      rw [printedLines_cons, List.mem_append, List.mem_cons]
      rcases List.mem_cons.mp member with rfl | later
      · exact .inl inside
      · exact .inr (.inr (ih later line inside))

/-- Markers are lost when what is printed is read again. -/
theorem plain_of_marks {fs : FileSystem} {transactions : List Transaction}
    {directives : List Located}
    (legible : ∀ transaction ∈ transactions, transaction.Legible)
    (accepted : parseText fs (printTransactions transactions) = .ok directives)
    (kept : transactionMarks transactions ≤ transactionMarks (transactionsOf directives)) :
    ∀ transaction ∈ transactions, transaction.Plain := by
  obtain ⟨texts, _⟩ := texts_printed fs legible
  obtain ⟨given, _⟩ := toExcept_eq_ok accepted
  rw [Reading.ofText, ofFeed_eq_gather] at given
  have bound := marks_gathered none
    (Feed.ofText fs (printTransactions transactions).toList ".").meaningful.error
    (Feed.ofText fs (printTransactions transactions).toList ".").meaningful.lines
  rw [gathered, given, texts] at bound
  obtain ⟨less, unmarked⟩ :=
    totalMarks_meaningfulTexts ((printedLines transactions).map String.toList)
  have total := totalMarks_printedLines legible
  have nothing : openMarks ((none : Option OpenRecord).map OpenRecord.transaction) = 0 := rfl
  have plain := unmarked (by omega)
  intro transaction member
  refine (legible transaction member).plain_iff.mpr fun line inside => ?_
  exact plain line.toList (List.mem_map_of_mem (mem_printedLines member line inside))

/-! The same transactions. -/

def Balance.Same (balance other : Balance) : Prop :=
  List.Forall₂ (fun entry entry' => entry.1 = entry'.1 ∧ entry.2.value = entry'.2.value)
    balance.entries other.entries

/-- The same account, elided or with the same amounts. -/
structure Posting.Same (posting other : Posting) : Prop where
  account : posting.account = other.account
  amounts : Option.Rel Balance.Same posting.amounts other.amounts

/-- The same date and description, and the same postings in order. -/
structure Transaction.Same (transaction other : Transaction) : Prop where
  date : transaction.date = other.date
  description : transaction.description = other.description
  postings : List.Forall₂ Posting.Same transaction.postings other.postings

/-- No name in front of a number starts with a blank. -/
def Transaction.Flush (transaction : Transaction) : Prop :=
  ∀ posting ∈ transaction.postings, ∀ amounts ∈ posting.amounts, ∀ entry ∈ amounts.entries,
    entry.1.Flush

theorem map_eq_of_forall₂ {α β γ : Type} {related : α → β → Prop} {f : α → γ} {g : β → γ}
    {left : List α} {right : List β} (pairs : List.Forall₂ related left right)
    (each : ∀ a b, related a b → f a = g b) : left.map f = right.map g := by
  rw [← List.forall₂_eq_eq_eq, List.forall₂_map_left_iff, List.forall₂_map_right_iff]
  exact pairs.imp each

/-- A relation that holds of a related pair exactly if its left side has a property holds of all
pairs exactly if all left sides have it. -/
theorem forall₂_iff_forall {α β : Type} {related relation : α → β → Prop} {holds : α → Prop}
    {left : List α} {right : List β} (pairs : List.Forall₂ related left right)
    (each : ∀ a ∈ left, ∀ b, related a b → (relation a b ↔ holds a)) :
    List.Forall₂ relation left right ↔ ∀ a ∈ left, holds a := by
  induction pairs with
  | nil => exact iff_of_true .nil fun _ member => nomatch member
  | cons first _ ih =>
    rw [List.forall_mem_cons] at each
    rw [List.forall₂_cons, List.forall_mem_cons, each.1 _ first, ih each.2]

theorem Posting.Same.marks {posting other : Posting} (same : posting.Same other) :
    posting.marks = other.marks := by
  have names : posting.commodityNames = other.commodityNames := by
    have amounts := same.amounts
    rw [commodityNames, commodityNames]
    generalize posting.amounts = left at amounts ⊢
    generalize other.amounts = right at amounts ⊢
    cases amounts with
    | none => rfl
    | some entries =>
      rw [Option.map_some, Option.map_some, Option.getD_some, Option.getD_some,
        List.flatMap_def, List.flatMap_def]
      refine congrArg List.flatten (map_eq_of_forall₂ entries fun entry entry' pair => ?_)
      rw [pair.1]
  rw [Posting.marks, Posting.marks, accountName, accountName, same.account, names]

theorem Transaction.Same.marks {transaction other : Transaction} (same : transaction.Same other) :
    transaction.marks = other.marks := by
  rw [Transaction.marks, Transaction.marks, same.description,
    map_eq_of_forall₂ same.postings fun _ _ pair => Posting.Same.marks pair]

theorem flush_single_iff {commodity : Commodity} {number : Decimal} :
    (∀ entry ∈ (Balance.single commodity number).entries, entry.1.Flush) ↔ commodity.Flush :=
  List.forall_mem_singleton

theorem same_single_iff {commodity other : Commodity} {number number' : Decimal} :
    (Balance.single commodity number).Same (Balance.single other number') ↔
      commodity = other ∧ number.value = number'.value := by
  change List.Forall₂ _ [(commodity, number)] [(other, number')] ↔ _
  simp

/-- What is read of a posting is the posting exactly if none of its names loses blanks. -/
theorem Posting.ReadsAs.same_iff {posting again : Posting} (readsAs : posting.ReadsAs again)
    (readable : posting.Readable) :
    posting.Same again ↔
      ∀ amounts ∈ posting.amounts, ∀ entry ∈ amounts.entries, entry.1.Flush := by
  have amounts : posting.Same again ↔ Option.Rel Balance.Same posting.amounts again.amounts :=
    ⟨fun same => same.amounts, fun same => ⟨readsAs.account.symm, same⟩⟩
  rw [amounts]
  cases given : posting.amounts with
  | none =>
    rw [readsAs.elided given]
    exact iff_of_true .none fun _ none => nomatch none
  | some balance =>
    obtain ⟨commodity, number, rfl, named⟩ := readable.amounts balance given
    obtain ⟨number', reread, value⟩ := readsAs.amounts commodity number given
    rw [reread, Option.rel_some_some, same_single_iff, value, eq_comm, and_iff_left rfl,
      named.reread_eq_self_iff]
    constructor
    · intro flush balance same
      rw [← Option.mem_some_iff.mp same]
      exact flush_single_iff.mpr flush
    · exact fun flush => flush_single_iff.mp (flush _ rfl)

theorem Transaction.ReadsAs.same_iff {transaction again : Transaction}
    (readsAs : transaction.ReadsAs again) (legible : transaction.Legible) :
    transaction.Same again ↔ transaction.Flush := by
  have postings : transaction.Same again ↔
      List.Forall₂ Posting.Same transaction.postings again.postings :=
    ⟨fun same => same.postings, fun same =>
      ⟨readsAs.date.symm, readsAs.description.symm, same⟩⟩
  rw [postings]
  exact forall₂_iff_forall readsAs.postings fun posting member again readsAs =>
    readsAs.same_iff (legible.postings posting member).readable

/-! Single lines. -/

/-- Lines are read as what they were written from. For every transaction with a year of four digits
and a description without blanks at its ends, the header is read as its date and description. For
every posting whose account segments have no blanks at their ends and no colon, whose account name is
not empty and has neither a tab nor two blanks in a row, and whose amounts are elided or one amount of
whole hundredths, in a commodity without a name or with a name that can be read and has no blank in
front of it, the line is read as the same account with the same amounts. -/
theorem lines_read_back :
    (∀ transaction : Transaction, transaction.date.HasFourDigits →
      Trimmed transaction.description.toList →
      readHeader transaction.header.toList = .ok { transaction with postings := [] }) ∧
    ∀ posting : Posting, posting.Readable →
      (∀ amounts ∈ posting.amounts, ∀ entry ∈ amounts.entries, entry.1.Flush ∧ entry.2.IsCents) →
      ∃ again, readPosting posting.line.toList = .ok again ∧ posting.Same again := by
  constructor
  · intro transaction date description
    exact Transaction.readHeader_header date description
  · intro posting readable each
    have flush : ∀ amounts ∈ posting.amounts, ∀ entry ∈ amounts.entries, entry.1.Flush :=
      fun amounts given entry member => (each amounts given entry member).1
    have exact : ∀ amounts ∈ posting.amounts, ∀ entry ∈ amounts.entries, entry.2.IsCents :=
      fun amounts given entry member => (each amounts given entry member).2
    obtain ⟨again, read, readsAs⟩ := readable.readPosting_line exact
    exact ⟨again, read, (readsAs.same_iff readable).mpr flush⟩

/-- A posting to an account whose name is wider than its column. -/
def Posting.fees : Posting :=
  ⟨["Expense", "", "Bank Fees of Former Accounts"],
    some (Balance.single ⟨" BTC", false⟩ (.spelled "-0.5"))⟩

theorem Posting.fees_readable : fees.Readable where
  segments := by decide +kernel
  named := by decide +kernel
  unbroken := ⟨by decide +kernel, by decide +kernel⟩
  amounts := by
    intro amounts given
    exact ⟨_, _, (Option.mem_some_iff.mp given).symm, by decide +kernel⟩

theorem Posting.fees_line_read_back :
    readHeader "0004/02/29 Leap day".toList =
        .ok ⟨⟨4, 2, 29, by decide⟩, "Leap day", []⟩ ∧
      ∃ again, readPosting "\tExpense::Bank Fees of Former Accounts\t           -0.50 BTC".toList =
        .ok again ∧ fees.Same again := by
  obtain ⟨headers, postings⟩ := lines_read_back
  have each : ∀ amounts ∈ fees.amounts, ∀ entry ∈ amounts.entries,
      entry.1.Flush ∧ entry.2.IsCents := by
    intro amounts given entry member
    rw [← Option.mem_some_iff.mp given] at member
    rw [List.mem_singleton.mp member]
    exact ⟨by decide +kernel, -50, by decide +kernel⟩
  have line : fees.line =
      "\tExpense::Bank Fees of Former Accounts\t           -0.50 BTC" := by decide +kernel
  have header : Transaction.header ⟨⟨4, 2, 29, by decide⟩, "Leap day", []⟩ =
      "0004/02/29 Leap day" := by decide +kernel
  have read := headers ⟨⟨4, 2, 29, by decide⟩, "Leap day", []⟩ ⟨by decide, by decide⟩
    (by decide +kernel)
  have readLine := postings fees fees_readable each
  rw [header] at read
  rw [line] at readLine
  exact ⟨read, readLine⟩

/-- Which journals can be printed and read again, for every journal that is accepted and has amounts
of whole hundredths only, whatever files there are: its transactions, printed and read, are the same
transactions if and only if they have no comment markers in them and no name in front of a number
starts with a blank. -/
theorem printed_reads_back_iff (fs later : FileSystem) (text : String) (directives : List Located)
    (accepted : parseText fs text = .ok directives)
    (exact : ∀ transaction ∈ transactionsOf directives, transaction.IsCents) :
    (∃ again, parseText later (printTransactions (transactionsOf directives)) = .ok again ∧
        List.Forall₂ Transaction.Same (transactionsOf directives) (transactionsOf again)) ↔
      ∀ transaction ∈ transactionsOf directives, transaction.Plain ∧ transaction.Flush := by
  have legible := legible_of_parseText accepted
  generalize transactionsOf directives = transactions at *
  constructor
  · rintro ⟨again, read, same⟩
    -- a line with a marker loses one and none is ever added, so the count tells that there is none
    have marks : transactionMarks transactions = transactionMarks (transactionsOf again) :=
      congrArg List.sum (map_eq_of_forall₂ same fun _ _ pair => pair.marks)
    have plain := plain_of_marks legible read marks.le
    obtain ⟨directives', read', readsAs⟩ := parseText_printed later legible exact plain
    rw [read] at read'
    cases read'
    have flush := (forall₂_iff_forall readsAs fun transaction member _ pair =>
      pair.same_iff (legible transaction member)).mp same
    exact fun transaction member => ⟨plain transaction member, flush transaction member⟩
  · intro faithful
    obtain ⟨again, read, readsAs⟩ := parseText_printed later legible exact
      fun transaction member => (faithful transaction member).1
    refine ⟨again, read, ?_⟩
    exact (forall₂_iff_forall readsAs fun transaction member _ pair =>
      pair.same_iff (legible transaction member)).mpr
        fun transaction member => (faithful transaction member).2

/-! Two journals. -/

theorem Transaction.isCents_of_single_elided {date : Date} {description : String}
    {account other : List String} {commodity : Commodity} {number : Decimal}
    (exact : number.IsCents) :
    IsCents ⟨date, description,
      [⟨account, some (Balance.single commodity number)⟩, ⟨other, none⟩]⟩ := by
  intro posting member amounts given entry inside
  rcases List.mem_cons.mp member with rfl | member
  · rw [← Option.mem_some_iff.mp given] at inside
    rw [List.mem_singleton.mp inside]
    exact exact
  · rw [List.mem_singleton.mp member] at given
    cases given

/-- The rent of a month, paid from a bank. -/
def Transaction.rent : Transaction :=
  ⟨⟨2013, 2, 1, by decide⟩, "Rent, paid late", [
    ⟨["Expense", "Old Flat"], some (Balance.single ⟨"$", true⟩ (.spelled "1500.5"))⟩,
    ⟨["Asset", "Bank"], none⟩]⟩

theorem Transaction.rent_isCents : rent.IsCents :=
  isCents_of_single_elided ⟨150050, by decide +kernel⟩

theorem Transaction.rent_plain : rent.Plain where
  description := by decide
  postings := by
    rw [rent, List.forall_mem_cons, List.forall_mem_singleton]
    exact ⟨⟨by decide, by decide⟩, ⟨by decide, by decide⟩⟩

theorem Transaction.rent_printed_reads_back :
    parseText (.ofWorkDir [])
        "2013-2-1 Rent, paid late ; in cash\n Expense: Old Flat  $1,500.5\n\tAsset:Bank" =
          .ok [⟨.transaction rent, 1, 3, none⟩] ∧
      ∃ again, parseText (.ofWorkDir []) (printTransactions [rent]) = .ok again ∧
        List.Forall₂ Transaction.Same [rent] (transactionsOf again) := by
  have accepted : parseText (.ofWorkDir [])
      "2013-2-1 Rent, paid late ; in cash\n Expense: Old Flat  $1,500.5\n\tAsset:Bank" =
        .ok [⟨.transaction rent, 1, 3, none⟩] := by
    rw [parseText_eq_gather]
    decide +kernel
  have flush : rent.Flush := by
    unfold Transaction.Flush
    decide
  have faithful : ∀ transaction ∈ [rent], transaction.Plain ∧ transaction.Flush :=
    List.forall_mem_singleton.mpr ⟨rent_plain, flush⟩
  exact ⟨accepted, (printed_reads_back_iff (.ofWorkDir []) (.ofWorkDir []) _ _ accepted
    (List.forall_mem_singleton.mpr rent_isCents)).mpr faithful⟩

/-- A purchase whose description has a comment marker in it. -/
def Transaction.purchase : Transaction :=
  ⟨⟨2013, 2, 20, by decide⟩, "Bought #1 item", [
    ⟨["Expense", "Toys"], some (Balance.single ⟨"$", true⟩ (.spelled "5"))⟩,
    ⟨["Asset", "Cash"], none⟩]⟩

/-- A description whose marker was escaped is printed without the escape, and is cut off there when
it is read again. -/
theorem Transaction.purchase_not_read_back :
    parseText (.ofWorkDir []) "2013/2/20 Bought \\#1 item\n\tExpense:Toys\t$5\n\tAsset:Cash\n" =
        .ok [⟨.transaction purchase, 1, 3, none⟩] ∧
      (∀ transaction ∈ [purchase], transaction.IsCents) ∧
      ¬ ∃ again, parseText (.ofWorkDir []) (printTransactions [purchase]) = .ok again ∧
        List.Forall₂ Transaction.Same [purchase] (transactionsOf again) := by
  have accepted : parseText (.ofWorkDir [])
      "2013/2/20 Bought \\#1 item\n\tExpense:Toys\t$5\n\tAsset:Cash\n" =
        .ok [⟨.transaction purchase, 1, 3, none⟩] := by
    rw [parseText_eq_gather]
    decide +kernel
  have cut : (parseText (.ofWorkDir []) (printTransactions [purchase])).map
      (fun again => (transactionsOf again).map Transaction.description) = .ok ["Bought"] := by
    rw [parseText_eq_gather]
    decide +kernel
  have exact : ∀ transaction ∈ [purchase], transaction.IsCents :=
    List.forall_mem_singleton.mpr (isCents_of_single_elided ⟨500, by decide +kernel⟩)
  refine ⟨accepted, exact, ?_⟩
  rintro ⟨again, read, same⟩
  have descriptions := map_eq_of_forall₂ same fun _ _ pair => pair.description
  rw [read] at cut
  have lost := descriptions.trans (Except.ok.inj cut)
  revert lost
  decide

end DoubleEntry

import DoubleEntry.Ledger
import DoubleEntry.Pattern.Parser
import DoubleEntry.Proofs.AccountTree.ArenaPosting
import DoubleEntry.Proofs.Balancing.Completion
import DoubleEntry.Proofs.Query.Selection

/-! Balance report, register and the selected transactions agree. The total of the balance report
adds the amounts that the running total of the register adds, in the same order. -/

namespace DoubleEntry

namespace Account

variable {account : Account} {commodity : Commodity} {amount : Decimal} {path : List String}

theorem fault_postRollup_eq_none_iff :
    (account.postRollup commodity amount).fault = none ↔
      (account.rollup.post commodity amount).fault = none := .rfl

/-- What is posted below an account is posted to its rollup first. -/
theorem post_rollup (done : (account.post commodity amount path).fault = none) :
    account.rollup.post commodity amount =
      ⟨(account.post commodity amount path).state.rollup, none⟩ := by
  cases path with
  | nil =>
    obtain ⟨first, _⟩ := Progress.fault_andThen_eq_none_iff.mp done
    rw [post, Progress.andThen_of_done _ first]
    exact Progress.eq_of_fault_eq_none (fault_postRollup_eq_none_iff.mp first)
  | cons name path =>
    obtain ⟨first, _⟩ := Progress.fault_andThen_eq_none_iff.mp done
    rw [post, Progress.andThen_of_done _ first]
    exact Progress.eq_of_fault_eq_none (fault_postRollup_eq_none_iff.mp first)

end Account

theorem Arena.total_eq (arena : Arena) : arena.total = arena.account.rollup :=
  (arena.rollup_accountOf 0).symm

namespace Arena

variable {arena : Arena} {commodity : Commodity} {amount : Decimal} {path : List String}

/-- What is posted in an arena is added to its total. -/
theorem post_total (done : (arena.post commodity amount path).fault = none) :
    arena.total.post commodity amount =
      ⟨(arena.post commodity amount path).state.total, none⟩ := by
  have run := arena.account_post commodity amount path
  have unfaulted : (arena.account.post commodity amount path).fault = none :=
    (congrArg Progress.fault run).symm.trans done
  have same : (arena.post commodity amount path).state.account =
      (arena.account.post commodity amount path).state := congrArg Progress.state run
  rw [total_eq, total_eq, same]
  exact Account.post_rollup unfaulted

theorem postAll_total {amounts : List (Commodity × Decimal)}
    (done : (arena.postAll path amounts).fault = none) :
    arena.total.postAll amounts = ⟨(arena.postAll path amounts).state.total, none⟩ :=
  Progress.foldl_view (fun _ _ first => post_total first) done

end Arena

/-- Adds the amounts of some postings, posting by posting. -/
def Balance.mergePostings (balance : Balance) (postings : List Posting) :
    Progress Balance Overflow :=
  Progress.foldl (fun balance posting => balance.merge (posting.amounts.getD ∅)) balance postings

namespace Arena

variable [PatternEngine] {arena : Arena} {query : Query} {transaction completed : Transaction}

theorem postSelected_total (done : (arena.postSelected query completed).fault = none) :
    arena.total.mergePostings (query.postings completed) =
      ⟨(arena.postSelected query completed).state.total, none⟩ :=
  Progress.foldl_view (fun _ _ first => postAll_total first) done

/-- A transaction that is posted can be completed, and its selected postings go to the total. -/
theorem postTransaction_total (done : (arena.postTransaction query transaction).fault = none) :
    ∃ completed, transaction.completed = .ok completed ∧
      arena.total.mergePostings (query.postings completed) =
        ⟨(arena.postTransaction query transaction).state.total, none⟩ := by
  cases whole : transaction.completed with
  | error error => simp [postTransaction, whole] at done
  | ok completed =>
    simp only [postTransaction, whole, Option.map_eq_none_iff] at done ⊢
    exact ⟨completed, rfl, postSelected_total done⟩

end Arena

/-- The running total of the last of some lines, or `start` if there is none. -/
def Register.lastTotal (start : Balance) (lines : List RegisterLine) : Balance :=
  (lines.getLast?.map RegisterLine.total).getD start

def Posting.shown (posting : Posting) : String × Balance :=
  (":".intercalate posting.account, posting.amounts.getD ∅)

def RegisterLine.shown (line : RegisterLine) : String × Balance := (line.account, line.change)

namespace Register

theorem lastTotal_append (start : Balance) (first second : List RegisterLine) :
    lastTotal start (first ++ second) = lastTotal (lastTotal start first) second := by
  cases second using List.reverseRecOn with
  | nil => simp [lastTotal]
  | append_singleton second last => simp [lastTotal, ← List.append_assoc]

/-- Postings whose amounts can be added up all have a line, and the total behind the last one is
their sum. -/
theorem lines_of_mergePostings {postings : List Posting} {total last : Balance}
    (done : total.mergePostings postings = ⟨last, none⟩) :
    ∃ entries, lines total postings = .ok (entries, last) ∧
      entries.map RegisterLine.shown = postings.map Posting.shown ∧
      lastTotal total.nonzero entries = last.nonzero := by
  induction postings generalizing total with
  | nil =>
    cases done
    exact ⟨[], rfl, rfl, rfl⟩
  | cons posting postings ih =>
    obtain ⟨first, _⟩ := Progress.fault_foldl_cons_eq_none_iff.mp (congrArg Progress.fault done)
    have merged := Progress.eq_of_fault_eq_none first
    rw [Balance.mergePostings, Progress.foldl_cons_of_done postings first] at done
    obtain ⟨later, linesEq, shown, lastEq⟩ := ih done
    refine ⟨⟨posting.accountName, posting.amounts.getD ∅,
      (total.merge (posting.amounts.getD ∅)).state.nonzero⟩ :: later, ?_, ?_, ?_⟩
    · rw [lines, Progress.toExcept_eq_ok_iff.mpr merged]
      simp [bind, Except.bind, pure, Except.pure, linesEq]
    · rw [List.map_cons, List.map_cons, shown]
      rfl
    · rw [← List.singleton_append, lastTotal_append]
      exact lastEq

end Register

theorem eq_ok_of_mapError_eq_ok {ε ε' α : Type} {result : Except ε α} {name : ε → ε'} {value : α}
    (ok : result.mapError name = .ok value) : result = .ok value := by
  cases result with
  | error error => cases ok
  | ok found =>
    cases ok
    rfl

theorem Balance.entries_nonzero (balance : Balance) :
    balance.nonzero.entries = balance.entries.filter fun entry => entry.2.value ≠ 0 := by
  refine List.filter_congr fun entry _ => ?_
  rw [Bool.eq_iff_iff, decide_eq_true_iff, ne_eq, Decimal.value_eq_zero_iff]
  simp

section

variable [PatternEngine] {arena : Arena} {query : Query} {transaction completed : Transaction}
  {transactions : List Transaction}

/-- An entry of a register shows a transaction with all its amounts, and a line for every posting
with a number that the query selects from the transaction as it is written, in order. -/
structure RegisterEntry.Shows (query : Query) (original : Transaction) (entry : RegisterEntry) :
    Prop where
  completed : original.completed = .ok entry.transaction
  lines : entry.lines.map RegisterLine.shown =
    (entry.transaction.postings.zipIdx.filter fun posting =>
      (query.execute original).contains posting.2).map fun posting => posting.1.shown
  nonempty : entry.lines ≠ []

/-- A query selects the same postings from a transaction and from its completion. -/
theorem execute_completed (whole : transaction.completed = .ok completed) :
    query.execute completed = query.execute transaction := by
  have same := Transaction.completedBy_of_completed whole
  exact Query.execute_congr same.description same.accounts query

theorem shows_of_lines {lines : List RegisterLine} (whole : transaction.completed = .ok completed)
    (some : query.execute transaction ≠ [])
    (shown : lines.map RegisterLine.shown = (query.postings completed).map Posting.shown) :
    RegisterEntry.Shows query transaction ⟨completed, lines⟩ := by
  have sameLength := (Transaction.completedBy_of_completed whole).length
  rw [Query.postings, execute_completed whole] at shown
  refine ⟨whole, ?_, ?_⟩
  · rw [shown, Query.postingsAt_execute query transaction completed sameLength, List.map_map]
    rfl
  · rintro rfl
    obtain ⟨index, selected⟩ := List.exists_mem_of_ne_nil _ some
    have inside : index < completed.postings.length := by
      rw [Query.execute_eq_filter] at selected
      rw [sameLength]
      exact List.mem_range.mp (List.mem_filter.mp selected).1
    have missing : Query.postingsAt completed (query.execute transaction) = [] :=
      List.map_eq_nil_iff.mp shown.symm
    have absent := List.filterMap_eq_nil_iff.mp missing index selected
    rw [List.getElem?_eq_getElem inside] at absent
    cases absent

/-- What a balance report adds up to its total, the register adds up too: it does not fail, it has
an entry for each transaction with a selected posting, and it ends in the same total. -/
theorem Register.entries_of_postTransactions
    (done : (arena.postTransactions query transactions).fault = none) :
    ∃ entries, Register.entries query arena.total transactions = .ok entries ∧
      List.Forall₂ (RegisterEntry.Shows query) (transactions.filter query.selects) entries ∧
      lastTotal arena.total.nonzero (entries.flatMap RegisterEntry.lines) =
        (arena.postTransactions query transactions).state.total.nonzero := by
  induction transactions generalizing arena with
  | nil => exact ⟨[], rfl, .nil, rfl⟩
  | cons transaction transactions ih =>
    obtain ⟨first, rest⟩ := Progress.fault_foldl_cons_eq_none_iff.mp done
    obtain ⟨completed, whole, merged⟩ := Arena.postTransaction_total first
    obtain ⟨later, laterEq, laterShown, lastEq⟩ := ih rest
    rw [Arena.postTransactions, Progress.foldl_cons_of_done transactions first]
    by_cases none : query.execute transaction = []
    · have unselected : query.selects transaction = false := by simp [Query.selects, none]
      have unchanged : (arena.postTransaction query transaction).state.total = arena.total := by
        rw [Query.postings, execute_completed whole, none] at merged
        exact (congrArg Progress.state merged).symm
      rw [unchanged] at laterEq lastEq
      refine ⟨later, ?_, ?_, lastEq⟩
      · simp [entries, none, laterEq]
      · rw [List.filter_cons_of_neg (by simp [unselected])]
        exact laterShown
    · have selected : query.selects transaction = true := by simp [Query.selects, none]
      obtain ⟨shownLines, linesEq, shown, totalEq⟩ := lines_of_mergePostings merged
      refine ⟨⟨completed, shownLines⟩ :: later, ?_, ?_, ?_⟩
      · rw [Query.postings, execute_completed whole] at linesEq
        simp [entries, none, whole, linesEq, laterEq, bind, Except.bind, pure, Except.pure,
          Except.mapError]
      · rw [List.filter_cons_of_pos selected]
        exact .cons (shows_of_lines whole none shown) laterShown
      · rw [List.flatMap_cons, lastTotal_append, totalEq]
        exact lastEq

theorem Journal.register_of_balanceReport {journal : Journal} {report : BalanceReport}
    (reported : journal.balanceReport query = .ok report) :
    ∃ entries, journal.register query = .ok entries ∧
      List.Forall₂ (RegisterEntry.Shows query) (journal.selected query) entries ∧
      Register.lastTotal ∅ (entries.flatMap RegisterEntry.lines) = report.total.nonzero := by
  rw [balanceReport] at reported
  cases done : (journal.accountTree query).toExcept with
  | error error =>
    rw [done] at reported
    cases reported
  | ok account =>
    rw [done] at reported
    cases reported
    have tree := Progress.toExcept_eq_ok_iff.mp done
    have run : ((∅ : Arena).postTransactions query journal.transactions).fault = none :=
      congrArg Progress.fault tree
    have accountEq :
        ((∅ : Arena).postTransactions query journal.transactions).state.account = account :=
      congrArg Progress.state tree
    obtain ⟨entries, entriesEq, shown, totalEq⟩ := Register.entries_of_postTransactions run
    rw [((∅ : Arena).postTransactions query journal.transactions).state.total_eq, accountEq]
      at totalEq
    exact ⟨entries, entriesEq, shown, totalEq⟩

/-- If there is a balance report then there are a register and a selection of transactions, and they
agree: the register shows exactly the selected transactions, and its last running total, which is
empty if it has no line, has the amounts of the balance report's total that are not zero. -/
theorem Ledger.reports_agree {ledger : Ledger} {report : BalanceReport}
    (reported : ledger.balanceReport query = .ok report) :
    ∃ entries selected, ledger.register query = .ok entries ∧
      ledger.selected query = .ok selected ∧
      List.Forall₂ (RegisterEntry.Shows query) selected entries ∧
      (Register.lastTotal ∅ (entries.flatMap RegisterEntry.lines)).entries =
        report.total.entries.filter fun entry => entry.2.value ≠ 0 := by
  cases loaded : ledger.journal with
  | error error => simp [balanceReport, loaded, bind, Except.bind] at reported
  | ok journal =>
    simp only [balanceReport, register, selected, loaded, bind, Except.bind, Except.map]
      at reported ⊢
    obtain ⟨entries, entriesEq, shown, totalEq⟩ :=
      Journal.register_of_balanceReport (eq_ok_of_mapError_eq_ok reported)
    refine ⟨entries, journal.selected query, ?_, rfl, shown, ?_⟩
    · rw [entriesEq]
      rfl
    · rw [totalEq, Balance.entries_nonzero]

end

/-- A journal of three transactions, of which two leave out an amount. -/
def Journal.threeDays : Journal :=
  let dollars (amount : String) : Option Balance := some (.single ⟨"$", true⟩ (.spelled amount))
  { transactions :=
      [⟨default, "Salary", [⟨["Asset"], dollars "1000"⟩, ⟨["Income"], none⟩]⟩,
       ⟨default, "Rent", [⟨["Asset"], none⟩, ⟨["Expense", "Flat"], dollars "455.5"⟩]⟩,
       ⟨default, "Coffee", [⟨["Expense", "Food"], dollars "2.50"⟩, ⟨["Cash"], dollars "-2.50"⟩]⟩] }

def Query.assets : Query := .account ⟨"Asset", _, rfl⟩

theorem Ledger.threeDays_reports_agree :
    ∃ ledger : Ledger, ledger.journal? = some .threeDays ∧
      ∃ report entries selected, ledger.balanceReport .assets = .ok report ∧
        report.total = .single ⟨"$", true⟩ (.spelled "544.5") ∧
        ledger.register .assets = .ok entries ∧ ledger.selected .assets = .ok selected ∧
        selected.length = 2 ∧ List.Forall₂ (RegisterEntry.Shows .assets) selected entries ∧
        (entries.flatMap RegisterEntry.lines).length = 2 ∧
        (Register.lastTotal ∅ (entries.flatMap RegisterEntry.lines)).entries =
          [(⟨"$", true⟩, .spelled "544.5")] ∧
        (Register.lastTotal ∅ (entries.flatMap RegisterEntry.lines)).entries =
          report.total.entries.filter fun entry => entry.2.value ≠ 0 := by
  let ledger : Ledger := ⟨default, [], some .threeDays⟩
  obtain ⟨report, reported, total⟩ : ∃ report, ledger.balanceReport .assets = .ok report ∧
      report.total = .single ⟨"$", true⟩ (.spelled "544.5") := ⟨_, rfl, by decide⟩
  obtain ⟨entries, selected, entriesEq, selectedEq, shown, same⟩ := reports_agree reported
  have two : (ledger.selected .assets).map List.length = .ok 2 := rfl
  have lines : (ledger.register .assets).map (fun entries =>
      ((entries.flatMap RegisterEntry.lines).length,
        (Register.lastTotal ∅ (entries.flatMap RegisterEntry.lines)).entries)) =
      .ok (2, [(⟨"$", true⟩, .spelled "544.5")]) := by rfl
  rw [selectedEq] at two
  rw [entriesEq] at lines
  obtain ⟨lineCount, last⟩ := Prod.mk.inj (Except.ok.inj lines)
  exact ⟨ledger, rfl, report, entries, selected, reported, total, entriesEq, selectedEq,
    Except.ok.inj two, shown, lineCount, last, same⟩

end DoubleEntry

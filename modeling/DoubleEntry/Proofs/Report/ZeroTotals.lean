import DoubleEntry.Proofs.Report.Agreement

/-! Double entry carries over from transactions to a whole journal. Behind each transaction that is
accepted the running total of everything is zero again, so the register ends every transaction
without a total, and the balance report has nothing but zeros in its own. -/

namespace DoubleEntry

variable {balance total last : Balance} {transaction completed : Transaction}
  {transactions : List Transaction}

/-- The amounts of a commodity that are written in a journal, transaction by transaction. -/
def Journal.amountsOf (journal : Journal) (commodity : Commodity) : List Decimal :=
  journal.transactions.flatMap (·.amountsOf commodity)

theorem Journal.amountsOf_sublist {journal : Journal} (member : transaction ∈ journal.transactions)
    (commodity : Commodity) :
    (transaction.amountsOf commodity).Sublist (journal.amountsOf commodity) :=
  List.sublist_flatten_of_mem (List.mem_map_of_mem member)

/-- Every transaction of a journal is accepted, none of them as an exchange of two commodities, and
the amounts of each commodity stay within bounds together. -/
structure Journal.Balanced (journal : Journal) : Prop where
  accepted : ∀ transaction ∈ journal.transactions, transaction.isBalanced = true
  noExchange : ∀ transaction ∈ journal.transactions, transaction.elisions = 0 →
    transaction.commodities.toFinset.card ≠ 2
  bounded : ∀ commodity, Decimal.gross (journal.amountsOf commodity) < 2 ^ 95

/-- A commodity that no transaction mentions is within any bounds. -/
theorem Journal.bounded_of_mentioned {journal : Journal}
    (mentioned : ∀ commodity ∈ journal.transactions.flatMap Transaction.commodities,
      Decimal.gross (journal.amountsOf commodity) < 2 ^ 95) (commodity : Commodity) :
    Decimal.gross (journal.amountsOf commodity) < 2 ^ 95 := by
  by_cases member : commodity ∈ journal.transactions.flatMap Transaction.commodities
  · exact mentioned commodity member
  · have none : journal.amountsOf commodity = [] := by
      rw [amountsOf, List.flatMap_eq_nil_iff]
      intro transaction inside
      by_contra some
      exact member (List.mem_flatMap.mpr
        ⟨transaction, inside, Transaction.amountsOf_ne_nil_iff.mp some⟩)
    rw [none]
    decide

theorem Balance.nonzero_eq_empty (zero : balance.isZero = true) : balance.nonzero = ∅ := by
  have none : balance.entries.filter (fun entry => !entry.2.isZero) = [] := by
    rw [List.filter_eq_nil_iff]
    intro entry member
    have isZero := List.all_eq_true.mp zero entry.2 (List.mem_map_of_mem member)
    simp [isZero]
  have sameEntries : balance.nonzero.entries = (∅ : Balance).entries := none
  cases nonzero : balance.nonzero
  cases empty : (∅ : Balance)
  simp_all

/-- A running sum forgets a zero in front of it. -/
theorem Decimal.sumFrom?_of_isZero {start : Decimal} {amounts : List Decimal}
    (zero : start.isZero = true) (some : amounts ≠ []) :
    sumFrom? start amounts = sumFrom? .zero amounts := by
  cases amounts with
  | nil => exact absurd rfl some
  | cons amount amounts =>
    have fresh : add? .zero amount = Option.some amount := add?_zero_left rfl
    rw [sumFrom?_cons, sumFrom?_cons, add?_zero_left zero, fresh]

/-- Posting by posting, the amounts of a transaction are added as they are written. -/
theorem mergePostings_eq (balance : Balance) (transaction : Transaction) :
    balance.mergePostings transaction.postings = balance.postAll transaction.written := by
  rw [Transaction.written_eq]
  exact Progress.foldl_flatMap _ _ _ _

/-- A transaction whose every running sum comes to zero leads from one zero balance to another. -/
theorem isZero_mergePostings (zero : balance.isZero = true)
    (sums : ∀ commodity, ∃ sum,
      Decimal.sumFrom? .zero (transaction.amountsOf commodity) = some sum ∧ sum.value = 0)
    (done : balance.mergePostings transaction.postings = ⟨last, none⟩) : last.isZero = true := by
  rw [mergePostings_eq] at done
  rw [Balance.isZero_iff]
  intro commodity
  have before : (balance.amountOf commodity).isZero = true := by
    rw [← Decimal.value_eq_zero_iff]
    exact balance.isZero_iff.mp zero commodity
  have run := Balance.sumFrom?_postAll (congrArg Progress.fault done) commodity
  rw [done, Transaction.amountsIn_written] at run
  -- without amounts the zero stays; the first amount takes its place otherwise
  by_cases none : transaction.amountsOf commodity = []
  · rw [none, Decimal.sumFrom?_nil] at run
    rw [← Option.some.inj run]
    exact (Decimal.value_eq_zero_iff _).mpr before
  · obtain ⟨sum, summed, sumZero⟩ := sums commodity
    rw [Decimal.sumFrom?_of_isZero before none, summed] at run
    rw [← Option.some.inj run]
    exact sumZero

/-- The running sums of an accepted transaction come to zero, once it has all its amounts. -/
theorem Transaction.sums_zero_of_completed (balanced : transaction.isBalanced = true)
    (noExchange : transaction.elisions = 0 → transaction.commodities.toFinset.card ≠ 2)
    (bounded : ∀ commodity, Decimal.gross (transaction.amountsOf commodity) < 2 ^ 95)
    (whole : transaction.completed = .ok completed) (commodity : Commodity) :
    ∃ sum, Decimal.sumFrom? .zero (completed.amountsOf commodity) = some sum ∧ sum.value = 0 := by
  rcases Nat.lt_trichotomy transaction.elisions 1 with none | one | many
  · have none : transaction.elisions = 0 := by omega
    rw [completed_of_elisions_eq_zero none] at whole
    cases whole
    have complete := elisions_eq_zero_iff.mp none
    obtain ⟨totals, summed, zero⟩ :=
      (isBalanced_iff_totals complete (noExchange none)).mp balanced
    exact ⟨totals.amountOf commodity, sumFrom?_amountsOf summed commodity, zero commodity⟩
  · have within : ∀ commodity, Decimal.gross (transaction.amountsOf commodity) < 2 ^ 96 :=
      fun commodity => (bounded commodity).trans (by decide)
    obtain ⟨totals, summed, exact⟩ := exists_totals_of_gross_lt within
    rw [completed_of_elisions_eq_one one, summed] at whole
    cases whole
    exact sumFrom?_fill_neg one summed (bounded commodity) (exact commodity)
  · rw [completed_of_two_le_elisions many] at whole
    cases whole

/-- What holds of every transaction of a balanced journal: with all its amounts, it leads from one
zero balance to another. -/
def Transaction.KeepsZero (transaction : Transaction) : Prop :=
  ∀ {completed : Transaction} {balance last : Balance}, transaction.completed = .ok completed →
    balance.isZero = true → balance.mergePostings completed.postings = ⟨last, none⟩ →
      last.isZero = true

theorem Journal.Balanced.keepsZero {journal : Journal} (balanced : journal.Balanced) :
    ∀ transaction ∈ journal.transactions, transaction.KeepsZero := by
  intro transaction member completed balance last whole zero done
  have bounded : ∀ commodity, Decimal.gross (transaction.amountsOf commodity) < 2 ^ 95 :=
    fun commodity => (Decimal.gross_le_of_sublist
      (Journal.amountsOf_sublist member commodity)).trans_lt (balanced.bounded commodity)
  have sums := Transaction.sums_zero_of_completed (balanced.accepted transaction member)
    (balanced.noExchange transaction member) bounded whole
  exact isZero_mergePostings zero sums done

/-- The total of an arena stays zero from transaction to transaction. -/
theorem Arena.isZero_postTransactions [PatternEngine] {arena : Arena}
    (keep : ∀ transaction ∈ transactions, transaction.KeepsZero)
    (zero : arena.total.isZero = true)
    (done : (arena.postTransactions .all transactions).fault = none) :
    (arena.postTransactions .all transactions).state.total.isZero = true := by
  induction transactions generalizing arena with
  | nil => exact zero
  | cons transaction transactions ih =>
    rw [List.forall_mem_cons] at keep
    obtain ⟨first, rest⟩ := Progress.fault_foldl_cons_eq_none_iff.mp done
    obtain ⟨completed, whole, merged⟩ := postTransaction_total first
    rw [Query.postings_all] at merged
    have next := keep.1 whole zero merged
    rw [postTransactions, Progress.foldl_cons_of_done transactions first]
    exact ih keep.2 next rest

namespace Register

/-- The first of some lines shows the first posting, and the others go on behind its total. -/
theorem lines_cons_eq_ok {posting : Posting} {postings : List Posting} {shown : List RegisterLine}
    (given : lines total (posting :: postings) = .ok (shown, last)) :
    ∃ next later, total.merge (posting.amounts.getD ∅) = ⟨next, none⟩ ∧
      lines next postings = .ok (later, last) ∧
      shown = ⟨posting.accountName, posting.amounts.getD ∅, next.nonzero⟩ :: later := by
  rw [lines] at given
  cases merged : (total.merge (posting.amounts.getD ∅)).toExcept with
  | error overflow =>
    rw [merged] at given
    cases given
  | ok next =>
    rw [merged] at given
    cases rest : lines next postings with
    | error overflow => simp [rest, bind, Except.bind] at given
    | ok found =>
      obtain ⟨later, behind⟩ := found
      simp only [rest, bind, Except.bind, pure, Except.pure] at given
      cases given
      exact ⟨next, later, Progress.toExcept_eq_ok_iff.mp merged, rest, rfl⟩

/-- Lines for some postings mean that their amounts can be added up; the last line has their sum. -/
theorem mergePostings_of_lines {postings : List Posting} {shown : List RegisterLine}
    (given : lines total postings = .ok (shown, last)) :
    total.mergePostings postings = ⟨last, none⟩ ∧ shown.length = postings.length ∧
      lastTotal total.nonzero shown = last.nonzero := by
  induction postings generalizing total shown with
  | nil =>
    cases given
    exact ⟨rfl, rfl, rfl⟩
  | cons posting postings ih =>
    obtain ⟨next, later, merged, rest, rfl⟩ := lines_cons_eq_ok given
    obtain ⟨done, sameLength, lastEq⟩ := ih rest
    refine ⟨?_, ?_, ?_⟩
    · have first := congrArg Progress.fault merged
      rw [Balance.mergePostings, Progress.foldl_cons_of_done postings first, merged]
      exact done
    · rw [List.length_cons, List.length_cons, sameLength]
    · rw [← List.singleton_append, lastTotal_append]
      exact lastEq

/-- The entry of a transaction with a selected posting comes first, and the others go on behind its
total. -/
theorem entries_cons_eq_ok [PatternEngine] {query : Query} {shown : List RegisterEntry}
    (some : query.execute transaction ≠ [])
    (given : entries query total (transaction :: transactions) = .ok shown) :
    ∃ completed texts next later, transaction.completed = .ok completed ∧
      lines total (query.postings completed) = .ok (texts, next) ∧
      entries query next transactions = .ok later ∧ shown = ⟨completed, texts⟩ :: later := by
  rw [entries] at given
  simp only [List.isEmpty_iff, if_neg some] at given
  cases whole : transaction.completed with
  | error error =>
    rw [whole] at given
    cases given
  | ok completed =>
    rw [whole] at given
    have same : Query.postingsAt completed (query.execute transaction) =
        query.postings completed := by
      rw [Query.postings, execute_completed whole]
    simp only [same, bind, Except.bind] at given
    cases first : lines total (query.postings completed) with
    | error overflow => simp [first, Except.mapError] at given
    | ok found =>
      obtain ⟨texts, next⟩ := found
      simp only [first, Except.mapError] at given
      cases rest : entries query next transactions with
      | error error => simp [rest] at given
      | ok later =>
        simp only [rest, pure, Except.pure] at given
        cases given
        exact ⟨completed, texts, next, later, rfl, first, rest, rfl⟩

/-- The running total of a register is empty behind the last posting of each transaction. -/
theorem total_eq_empty_of_entries [PatternEngine] {shown : List RegisterEntry}
    (keep : ∀ transaction ∈ transactions, transaction.KeepsZero) (zero : total.isZero = true)
    (given : entries .all total transactions = .ok shown) :
    ∀ entry ∈ shown, ∃ line, entry.lines.getLast? = some line ∧ line.total = ∅ := by
  induction transactions generalizing total shown with
  | nil =>
    cases given
    simp
  | cons transaction transactions ih =>
    rw [List.forall_mem_cons] at keep
    by_cases none : Query.all.execute transaction = []
    · have passed : entries .all total transactions = .ok shown := by
        rw [← given, entries]
        simp [none]
      exact ih keep.2 zero passed
    · obtain ⟨completed, texts, next, later, whole, first, rest, rfl⟩ :=
        entries_cons_eq_ok none given
      obtain ⟨merged, sameLength, lastEq⟩ := mergePostings_of_lines first
      rw [Query.postings_all] at merged sameLength
      have nextZero := keep.1 whole zero merged
      have nonempty : texts ≠ [] := by
        rintro rfl
        have noPosting : completed.postings.length = 0 := sameLength.symm
        rw [(Transaction.completedBy_of_completed whole).length] at noPosting
        refine none ?_
        simp [Query.execute, Query.indices, noPosting]
      refine List.forall_mem_cons.mpr ⟨?_, ih keep.2 nextZero rest⟩
      refine ⟨texts.getLast nonempty, List.getLast?_eq_some_getLast nonempty, ?_⟩
      rw [Balance.nonzero_eq_empty nextZero, lastTotal, List.getLast?_eq_some_getLast nonempty]
        at lastEq
      exact lastEq

end Register

/-- In a balanced journal everything adds up to zero: the total of its balance report has no amount
but zeros, and its register has no running total behind the last posting of a transaction. -/
theorem Ledger.totals_cancel_out [PatternEngine] {ledger : Ledger} {journal : Journal}
    (loaded : ledger.journal = .ok journal) (balanced : journal.Balanced) :
    (∀ report, ledger.balanceReport .all = .ok report →
      ∀ entry ∈ report.total.entries, entry.2.value = 0) ∧
    (∀ entries, ledger.register .all = .ok entries →
      ∀ entry ∈ entries, ∃ line, entry.lines.getLast? = some line ∧ line.total = ∅) := by
  have keep := balanced.keepsZero
  constructor
  · intro report reported entry member
    simp only [balanceReport, loaded, bind, Except.bind, Journal.balanceReport] at reported
    cases done : (journal.accountTree .all).toExcept with
    | error error =>
      rw [done] at reported
      cases reported
    | ok account =>
      rw [done] at reported
      cases reported
      have tree := Progress.toExcept_eq_ok_iff.mp done
      have accountEq := congrArg Progress.state tree
      have zero := Arena.isZero_postTransactions keep rfl (congrArg Progress.fault tree)
      rw [Arena.total_eq] at zero
      change (Journal.accountTree journal .all).state.rollup.isZero = true at zero
      rw [accountEq] at zero
      have isZero := List.all_eq_true.mp zero entry.2 (List.mem_map_of_mem member)
      exact (Decimal.value_eq_zero_iff entry.2).mpr isZero
  · intro entries registered
    simp only [register, loaded, bind, Except.bind] at registered
    exact Register.total_eq_empty_of_entries keep rfl (eq_ok_of_mapError_eq_ok registered)

/-- A journal of three transactions: the trade of a day with its fees, a dinner in another currency
that three people share, and a transfer between two accounts. -/
def Journal.trip : Journal :=
  let euros (amount : String) : Option Balance := some (.single ⟨" EUR", false⟩ (.spelled amount))
  { transactions := [Transaction.dayTrade,
      ⟨default, "Dinner", [⟨["Expense"], euros "33.333"⟩, ⟨["Receivable", "Ann"], euros "33.333"⟩,
        ⟨["Receivable", "Bob"], euros "33.334"⟩, ⟨["Cash"], euros "-100"⟩]⟩,
      ⟨default, "Transfer", [⟨["Asset", "Cash"], none⟩, ⟨["Asset", "Bank"], euros "-20.5"⟩]⟩] }

theorem Ledger.trip_totals_cancel_out :
    ∃ ledger : Ledger, ledger.journal = .ok .trip ∧ Journal.trip.Balanced ∧
      (∃ report, ledger.balanceReport .all = .ok report ∧ report.total.entries.length = 3 ∧
        ∀ entry ∈ report.total.entries, entry.2.value = 0) ∧
      (∃ entries, ledger.register .all = .ok entries ∧ entries.length = 3 ∧
        ∀ entry ∈ entries, ∃ line, entry.lines.getLast? = some line ∧ line.total = ∅) := by
  let ledger : Ledger := ⟨default, [], some .trip⟩
  have loaded : ledger.journal = .ok .trip := rfl
  have balanced : Journal.trip.Balanced := by
    refine ⟨by decide, by decide, Journal.bounded_of_mentioned ?_⟩
    decide
  obtain ⟨report, reported, three⟩ : ∃ report, ledger.balanceReport .all = .ok report ∧
      report.total.entries.length = 3 := ⟨_, rfl, by decide⟩
  obtain ⟨entries, registered, all⟩ : ∃ entries, ledger.register .all = .ok entries ∧
      entries.length = 3 := ⟨_, rfl, by decide⟩
  obtain ⟨reports, registers⟩ := totals_cancel_out loaded balanced
  exact ⟨ledger, loaded, balanced, ⟨report, reported, three, reports report reported⟩,
    ⟨entries, registered, all, registers entries registered⟩⟩

end DoubleEntry

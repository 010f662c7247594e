import DoubleEntry.Proofs.Report.Bookings

/-! The running totals of a register. Behind every line the register holds the sum of all changes so
far, also of commodities that have come to zero, and shows it without its zeros. So what it shows is
the sum of the changes up to there, from one transaction to the next, and within bounds it is the
exact sum. -/

namespace DoubleEntry

variable {transaction completed : Transaction} {transactions : List Transaction}
  {total last balance : Balance} {others : List Balance} {commodity : Commodity}

/-! Sums of balances. -/

namespace Balance

def mergeAll (balance : Balance) (others : List Balance) : Progress Balance Overflow :=
  Progress.foldl merge balance others

theorem mergeAll_eq_postAll (balance : Balance) (others : List Balance) :
    balance.mergeAll others = balance.postAll (others.flatMap SortedMap.entries) :=
  Progress.foldl_flatMap _ _ _ _

theorem amountsIn_flatMap_entries (balances : List Balance) (commodity : Commodity) :
    amountsIn (balances.flatMap SortedMap.entries) commodity =
      balances.filterMap (·.find? commodity) := by
  induction balances with
  | nil => rfl
  | cons balance balances ih =>
    have here := SortedMap.filterMap_entries balance commodity
    rw [List.flatMap_cons, amountsIn, List.filterMap_append, here, ← amountsIn, ih]
    cases found : balance.find? commodity with
    | none => simp [found]
    | some amount => simp [found]

/-- A sum of balances within bounds is exact for every commodity. -/
theorem value_mergeAll (merged : mergeAll ∅ others = ⟨last, none⟩)
    (bounded : Decimal.gross (others.filterMap (·.find? commodity)) < 2 ^ 96) :
    (last.amountOf commodity).value =
      Decimal.exactSum (others.filterMap (·.find? commodity)) := by
  rw [mergeAll_eq_postAll] at merged
  have run := sumFrom?_postAll (congrArg Progress.fault merged) commodity
  obtain ⟨sum, summed, exact⟩ := Decimal.sumFrom?_of_gross_lt bounded
  rw [merged, amountsIn_flatMap_entries, amountOf_empty, summed] at run
  rw [← Option.some.inj run]
  exact exact.value_eq

/-- Without its zeros a balance has the amounts that are not zero. -/
theorem find?_nonzero_cases (balance : Balance) (commodity : Commodity) :
    balance.nonzero.find? commodity = none ∧ (balance.amountOf commodity).value = 0 ∨
      balance.nonzero.find? commodity = some (balance.amountOf commodity) ∧
        (balance.amountOf commodity).value ≠ 0 := by
  rw [nonzero, SortedMap.find?_filter, amountOf]
  cases found : balance.find? commodity with
  | none => exact .inl ⟨rfl, Decimal.value_zero⟩
  | some amount =>
    rw [Option.getD_some, Ne, Decimal.value_eq_zero_iff]
    cases zero : amount.isZero with
    | true => exact .inl ⟨by simp [zero], rfl⟩
    | false => exact .inr ⟨by simp [zero], by simp⟩

end Balance

/-! The lines of a register. -/

namespace Register

/-- Behind a running total every line shows the total of all changes up to its own. -/
def RunsFrom (total : Balance) (shown : List RegisterLine) : Prop :=
  ∀ k line, shown[k]? = some line → ∃ running,
    total.mergeAll ((shown.map RegisterLine.change).take (k + 1)) = ⟨running, none⟩ ∧
      line.total = running.nonzero

theorem runsFrom_nil (total : Balance) : RunsFrom total [] := by
  intro k line found
  cases found

theorem RunsFrom.cons {line : RegisterLine} {next : Balance} {shown : List RegisterLine}
    (merged : total.merge line.change = ⟨next, none⟩) (here : line.total = next.nonzero)
    (later : RunsFrom next shown) : RunsFrom total (line :: shown) := by
  have first := congrArg Progress.fault merged
  intro k other found
  cases k with
  | zero =>
    cases found
    exact ⟨next, (Progress.foldl_singleton _ _ _).trans merged, here⟩
  | succ k =>
    obtain ⟨running, sum, same⟩ := later k other found
    refine ⟨running, ?_, same⟩
    rw [List.map_cons, List.take_succ_cons, Balance.mergeAll,
      Progress.foldl_cons_of_done _ first, merged]
    exact sum

theorem RunsFrom.append {first second : List RegisterLine} (runs : RunsFrom total first)
    (merged : total.mergeAll (first.map RegisterLine.change) = ⟨last, none⟩)
    (later : RunsFrom last second) : RunsFrom total (first ++ second) := by
  intro k line found
  rw [List.map_append, List.take_append, List.length_map]
  rcases Nat.lt_or_ge k first.length with inside | behind
  · rw [List.getElem?_append_left inside] at found
    have none : k + 1 - first.length = 0 := by omega
    rw [none, List.take_zero, List.append_nil]
    exact runs k line found
  · rw [List.getElem?_append_right behind] at found
    obtain ⟨running, sum, same⟩ := later _ line found
    refine ⟨running, ?_, same⟩
    rw [List.take_of_length_le (by rw [List.length_map]; omega), Balance.mergeAll,
      Progress.foldl_append, ← Balance.mergeAll, merged, Progress.andThen_ok,
      Nat.succ_sub behind]
    exact sum

theorem runsFrom_lines {postings : List Posting} {shown : List RegisterLine}
    (given : lines total postings = .ok (shown, last)) :
    RunsFrom total shown ∧
      total.mergeAll (shown.map RegisterLine.change) = ⟨last, none⟩ ∧
      shown.map RegisterLine.shown = postings.map Posting.shown := by
  induction postings generalizing total shown with
  | nil =>
    cases given
    exact ⟨runsFrom_nil _, rfl, rfl⟩
  | cons posting postings ih =>
    obtain ⟨next, later, merged, rest, rfl⟩ := lines_cons_eq_ok given
    obtain ⟨runs, sum, texts⟩ := ih rest
    refine ⟨.cons merged rfl runs, ?_, ?_⟩
    · rw [List.map_cons, Balance.mergeAll,
        Progress.foldl_cons_of_done _ (congrArg Progress.fault merged), merged]
      exact sum
    · rw [List.map_cons, List.map_cons, texts]
      rfl

/-- A register runs on from transaction to transaction, and shows each one that is selected. -/
theorem runsFrom_entries [PatternEngine] {query : Query} {shown : List RegisterEntry}
    (given : entries query total transactions = .ok shown) :
    RunsFrom total (shown.flatMap RegisterEntry.lines) ∧
      List.Forall₂ (RegisterEntry.Shows query) (transactions.filter query.selects) shown := by
  induction transactions generalizing total shown with
  | nil =>
    cases given
    exact ⟨runsFrom_nil total, .nil⟩
  | cons transaction transactions ih =>
    by_cases none : query.execute transaction = []
    · -- Such a transaction is not even completed, and the sum goes on as it is.
      have unselected : query.selects transaction = false := by simp [Query.selects, none]
      have passed : entries query total transactions = .ok shown := by
        rw [← given, entries]
        simp [none]
      rw [List.filter_cons_of_neg (by simp [unselected])]
      exact ih passed
    · have selected : query.selects transaction = true := by simp [Query.selects, none]
      obtain ⟨completed, texts, next, later, whole, first, rest, rfl⟩ :=
        entries_cons_eq_ok none given
      obtain ⟨runs, sum, texts⟩ := runsFrom_lines first
      obtain ⟨laterRuns, laterShown⟩ := ih rest
      rw [List.filter_cons_of_pos selected, List.flatMap_cons]
      exact ⟨runs.append sum laterRuns, .cons (shows_of_lines whole none texts) laterShown⟩

end Register

theorem Transaction.elisions_le_one_of_completed (whole : transaction.completed = .ok completed) :
    transaction.elisions ≤ 1 := by
  by_contra many
  rw [completed_of_two_le_elisions (by omega)] at whole
  cases whole

def Register.changes (entries : List RegisterEntry) : List Balance :=
  (entries.flatMap RegisterEntry.lines).map RegisterLine.change

/-- The exact sum of a commodity in the first `count` changes of a register. -/
def Register.exactTotal (entries : List RegisterEntry) (count : Nat) (commodity : Commodity) :
    Rat :=
  Decimal.exactSum (((changes entries).take count).filterMap (·.find? commodity))

section

variable [PatternEngine] {query : Query}

/-! What a query selects. -/

/-- The postings of a transaction with a number that a query selects, with all their amounts. -/
def Transaction.selectedPostings (query : Query) (transaction : Transaction) : List Posting :=
  match transaction.completed with
  | .ok completed => (completed.postings.zipIdx.filter fun posting =>
      (query.execute transaction).contains posting.2).map (·.1)
  | .error _ => []

namespace Transaction

/-- The numbers that a query selects are numbers of the completed transaction's postings too. -/
theorem lt_length_of_mem_execute (whole : transaction.completed = .ok completed) {index : Nat}
    (selected : index ∈ query.execute transaction) : index < completed.postings.length := by
  rw [Query.execute_eq_filter] at selected
  rw [(completedBy_of_completed whole).length]
  exact List.mem_range.mp (List.mem_filter.mp selected).1

theorem bookings_eq_flatMap (query : Query) (transaction : Transaction) :
    transaction.bookings query =
      (transaction.selectedPostings query).flatMap Posting.bookings := by
  rw [selectedPostings]
  split
  case h_1 completed whole =>
    have sameLength := (completedBy_of_completed whole).length
    rw [bookings_of_completed whole, Query.postings, execute_completed whole,
      Query.postingsAt_execute query transaction completed sameLength]
  case h_2 error failed =>
    rw [bookings, failed]
    rfl

end Transaction

/-- The lines of entries show the selected postings of their transactions. -/
theorem RegisterEntry.Shows.lines_flatMap {entries : List RegisterEntry}
    (shown : List.Forall₂ (RegisterEntry.Shows query) transactions entries) :
    (entries.flatMap RegisterEntry.lines).map RegisterLine.shown =
      (transactions.flatMap (Transaction.selectedPostings query)).map Posting.shown := by
  induction shown with
  | nil => rfl
  | cons here _ ih =>
    rw [List.flatMap_cons, List.flatMap_cons, List.map_append, List.map_append, ih, here.lines,
      Transaction.selectedPostings, here.completed, List.map_map]
    rfl

theorem RegisterEntry.Shows.exists_completed {entries : List RegisterEntry}
    (shown : List.Forall₂ (RegisterEntry.Shows query) transactions entries) :
    ∀ transaction ∈ transactions, ∃ completed, transaction.completed = .ok completed := by
  induction shown with
  | nil => simp
  | cons here _ ih => exact List.forall_mem_cons.mpr ⟨⟨_, here.completed⟩, ih⟩

namespace Journal

variable {journal : Journal} {entries : List RegisterEntry}

/-- The postings of a journal that a query selects, with all their amounts. -/
def selectedPostings (journal : Journal) (query : Query) : List Posting :=
  (journal.selected query).flatMap (Transaction.selectedPostings query)

/-- A journal with only the transactions of which a query selects a posting. -/
def narrowed (journal : Journal) (query : Query) : Journal :=
  { journal with transactions := journal.selected query }

/-- The transactions that a register shows can be added up within the bounds of the journal. -/
theorem summable_narrowed
    (shown : List.Forall₂ (RegisterEntry.Shows query) (journal.selected query) entries)
    (bounded : ∀ commodity, Decimal.gross (journal.amountsOf commodity) < 2 ^ 95) :
    (journal.narrowed query).Summable where
  elisions transaction member := by
    obtain ⟨completed, whole⟩ := RegisterEntry.Shows.exists_completed shown transaction member
    exact Transaction.elisions_le_one_of_completed whole
  bounded commodity := by
    have part : ((journal.narrowed query).amountsOf commodity).Sublist
        (journal.amountsOf commodity) := List.filter_sublist.flatMap _
    exact (Decimal.gross_le_of_sublist part).trans_lt (bounded commodity)

/-- The changes of a register are what the query selects, amount by amount. -/
theorem flatMap_changes
    (shown : List.Forall₂ (RegisterEntry.Shows query) (journal.selected query) entries) :
    (Register.changes entries).flatMap SortedMap.entries =
      ((journal.narrowed query).bookings query).map Booking.entry := by
  have changes : Register.changes entries =
      (journal.selectedPostings query).map fun posting => posting.amounts.getD ∅ := by
    have texts := congrArg (List.map Prod.snd) (RegisterEntry.Shows.lines_flatMap shown)
    rw [List.map_map, List.map_map] at texts
    exact texts
  have each : Transaction.bookings query = fun transaction =>
      (transaction.selectedPostings query).flatMap Posting.bookings := by
    funext transaction
    exact transaction.bookings_eq_flatMap query
  rw [changes, List.flatMap_map, bookings, each, ← List.flatMap_assoc, List.map_flatMap]
  refine congrArg (fun entriesOf => (journal.selectedPostings query).flatMap entriesOf) ?_
  funext posting
  rw [Posting.bookings, List.map_map]
  exact (List.map_id _).symm

/-- Within bounds the changes of a register stay within bounds, up to any line. -/
theorem gross_changes_lt
    (shown : List.Forall₂ (RegisterEntry.Shows query) (journal.selected query) entries)
    (bounded : ∀ commodity, Decimal.gross (journal.amountsOf commodity) < 2 ^ 95) (count : Nat)
    (commodity : Commodity) :
    Decimal.gross (((Register.changes entries).take count).filterMap (·.find? commodity)) <
      2 ^ 96 := by
  have all := (summable_narrowed shown bounded).bounded_bookings query commodity
  rw [← flatMap_changes shown, Balance.amountsIn_flatMap_entries] at all
  exact (Decimal.gross_le_of_sublist ((List.take_sublist ..).filterMap _)).trans_lt all

/-- What a register shows, for every journal and every query for which there is one. The numbers
that the query selects in a transaction are numbers of its completed postings. The register has an
entry for each selected transaction, and its lines show the selected postings, each with all its
amounts. The total on a line is the sum of the changes up to there, without the commodities that
are zero; and if the amounts of the journal stay within bounds, it has exactly the commodities whose
exact sum up to there is not zero, each with that sum. -/
theorem register_running_totals (registered : journal.register query = .ok entries) :
    (∀ transaction ∈ journal.transactions, ∀ completed, transaction.completed = .ok completed →
      ∀ index ∈ query.execute transaction, index < completed.postings.length) ∧
    List.Forall₂ (RegisterEntry.Shows query) (journal.selected query) entries ∧
    (entries.flatMap RegisterEntry.lines).map RegisterLine.shown =
      (journal.selectedPostings query).map Posting.shown ∧
    (∀ k line, (entries.flatMap RegisterEntry.lines)[k]? = some line → ∃ running,
      Balance.mergeAll ∅ ((Register.changes entries).take (k + 1)) = ⟨running, none⟩ ∧
        line.total = running.nonzero) ∧
    ((∀ commodity, Decimal.gross (journal.amountsOf commodity) < 2 ^ 95) →
      ∀ k line, (entries.flatMap RegisterEntry.lines)[k]? = some line → ∀ commodity,
        line.total.find? commodity = none ∧
            Register.exactTotal entries (k + 1) commodity = 0 ∨
          ∃ amount, line.total.find? commodity = some amount ∧
            amount.value = Register.exactTotal entries (k + 1) commodity ∧ amount.value ≠ 0) := by
  obtain ⟨runs, shown⟩ := Register.runsFrom_entries registered
  refine ⟨fun transaction _ completed whole index => Transaction.lt_length_of_mem_execute whole,
    shown, RegisterEntry.Shows.lines_flatMap shown, runs, fun bounded k line found commodity => ?_⟩
  obtain ⟨running, sum, same⟩ := runs k line found
  have exact : (running.amountOf commodity).value =
      Register.exactTotal entries (k + 1) commodity :=
    Balance.value_mergeAll sum (gross_changes_lt shown bounded (k + 1) commodity)
  rw [same, ← exact]
  rcases running.find?_nonzero_cases commodity with none | ⟨found, nonzero⟩
  · exact .inl none
  · exact .inr ⟨_, found, rfl, nonzero⟩

end Journal

end

namespace Journal

/-- A salary that is spent to the last cent, something of which two amounts are not known, and a
gift. -/
def payday : Journal :=
  let dollars (amount : String) : Option Balance := some (.single ⟨"$", true⟩ (.spelled amount))
  { transactions :=
      [⟨default, "Salary", [⟨["Asset"], dollars "1000"⟩, ⟨["Income"], none⟩]⟩,
       ⟨default, "Rent", [⟨["Asset"], none⟩, ⟨["Expense", "Flat"], dollars "1000.00"⟩]⟩,
       ⟨default, "Lost", [⟨["Cash"], none⟩, ⟨["Expense"], none⟩]⟩,
       ⟨default, "Gift", [⟨["Income"], dollars "-5.5"⟩, ⟨["Asset", "Bank"], dollars "5.5"⟩]⟩] }

theorem payday_running_totals :
    ∃ entries, payday.register .assets = .ok entries ∧
      ((entries.flatMap RegisterEntry.lines).map fun line => line.total.find? ⟨"$", true⟩) =
        [some (.spelled "1000"), none, some (.spelled "5.5")] ∧
      (entries.flatMap RegisterEntry.lines).map RegisterLine.shown =
        (payday.selectedPostings .assets).map Posting.shown ∧
      (∀ commodity, Decimal.gross (payday.amountsOf commodity) < 2 ^ 95) ∧
      Register.exactTotal entries 1 ⟨"$", true⟩ = 1000 ∧
      Register.exactTotal entries 2 ⟨"$", true⟩ = 0 ∧
      Register.exactTotal entries 3 ⟨"$", true⟩ = 11 / 2 := by
  obtain ⟨entries, registered, totals⟩ : ∃ entries, payday.register .assets = .ok entries ∧
      ((entries.flatMap RegisterEntry.lines).map fun line => line.total.find? ⟨"$", true⟩) =
        [some (.spelled "1000"), none, some (.spelled "5.5")] := ⟨_, rfl, by decide⟩
  obtain ⟨_, _, shown, _, exact⟩ := register_running_totals registered
  have bounded := payday.bounded_of_mentioned (by decide)
  have each (k : Nat) (total : Option Decimal)
      (here : [some (.spelled "1000"), none, some (.spelled "5.5")][k]? = some total) :
      Register.exactTotal entries (k + 1) ⟨"$", true⟩ = (total.map Decimal.value).getD 0 := by
    rw [← totals, List.getElem?_map, Option.map_eq_some_iff] at here
    obtain ⟨line, found, rfl⟩ := here
    rcases exact bounded k line found ⟨"$", true⟩ with ⟨none, zero⟩ | ⟨amount, some, same, _⟩
    · rw [none, zero, Option.map_none, Option.getD_none]
    · rw [some, ← same, Option.map_some, Option.getD_some]
  exact ⟨entries, registered, totals, shown, bounded, (each 0 _ rfl).trans (by decide +kernel),
    each 1 _ rfl, (each 2 _ rfl).trans (by decide +kernel)⟩

end Journal

end DoubleEntry

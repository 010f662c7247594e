import DoubleEntry.Proofs.AccountTree.ArenaRollup
import DoubleEntry.Proofs.AccountTree.Bounds
import DoubleEntry.Proofs.Report.ZeroTotals
import Mathlib.Data.List.Flatten

/-! The bookings of a journal. Posting the transactions that a query selects from is posting the
amounts of the selected postings one by one. If no transaction leaves out more than one posting's
amounts, what is filled in at most doubles the amounts of a commodity, so that within half the
bounds all of them are posted. -/

namespace DoubleEntry

variable {transaction completed : Transaction} {transactions : List Transaction}
  {commodity : Commodity} {arena last : Arena} {scale : Nat}

/-- What a posting adds to its account. -/
def Posting.bookings (posting : Posting) : List Booking :=
  (posting.amounts.getD ∅).entries.map fun entry => ⟨posting.account, entry.1, entry.2⟩

theorem Transaction.amountsIn_bookings (transaction : Transaction) (commodity : Commodity) :
    Balance.amountsIn ((transaction.postings.flatMap Posting.bookings).map Booking.entry)
      commodity = transaction.amountsOf commodity := by
  rw [← amountsIn_written, written_eq, List.map_flatMap]
  congr 2
  funext posting
  rw [Posting.bookings, List.map_map]
  exact List.map_id _

/-- Lists of amounts that are at most doubled, one after the other. -/
theorem Decimal.grossAt_flatMap_le {α : Type} {items : List α} {first second : α → List Decimal}
    (double : ∀ item ∈ items, grossAt scale (first item) ≤ 2 * grossAt scale (second item)) :
    grossAt scale (items.flatMap first) ≤ 2 * grossAt scale (items.flatMap second) := by
  induction items with
  | nil => exact Nat.zero_le _
  | cons item items ih =>
    obtain ⟨here, later⟩ := List.forall_mem_cons.mp double
    have rest := ih later
    rw [List.flatMap_cons, List.flatMap_cons, grossAt_append, grossAt_append]
    omega

namespace Journal

variable {journal other : Journal}

/-- No transaction of a journal leaves out the amounts of more than one posting, and the amounts of
each commodity stay within bounds together. -/
structure Summable (journal : Journal) : Prop where
  elisions : ∀ transaction ∈ journal.transactions, transaction.elisions ≤ 1
  bounded : ∀ commodity, Decimal.gross (journal.amountsOf commodity) < 2 ^ 95

theorem Summable.transaction_bounded (summable : journal.Summable)
    (member : transaction ∈ journal.transactions) (commodity : Commodity) :
    Decimal.gross (transaction.amountsOf commodity) < 2 ^ 96 :=
  (Decimal.gross_le_of_sublist (amountsOf_sublist member commodity)).trans_lt
    ((summable.bounded commodity).trans (by decide))

theorem Summable.complete (summable : journal.Summable) :
    ∀ transaction ∈ journal.transactions, ∃ completed, transaction.completed = .ok completed := by
  intro transaction member
  obtain ⟨completed, whole, _⟩ := Transaction.exists_completed_grossAt_le
    (summable.elisions transaction member) (summable.transaction_bounded member)
  exact ⟨completed, whole⟩

theorem Summable.perm (summable : journal.Summable)
    (permuted : other.transactions.Perm journal.transactions) : other.Summable where
  elisions transaction member := summable.elisions transaction (permuted.subset member)
  bounded commodity := by
    have amounts : (other.amountsOf commodity).Perm (journal.amountsOf commodity) :=
      permuted.flatMap_right _
    rw [Decimal.gross_perm amounts]
    exact summable.bounded commodity

end Journal

/-! What a query selects. -/

variable [PatternEngine] {query : Query}

/-- What the postings of a transaction that a query selects add to their accounts, as soon as the
transaction has all its amounts. -/
def Transaction.bookings (query : Query) (transaction : Transaction) : List Booking :=
  match transaction.completed with
  | .ok completed => (query.postings completed).flatMap Posting.bookings
  | .error _ => []

/-- What the postings of a journal that a query selects add to their accounts. -/
def Journal.bookings (journal : Journal) (query : Query) : List Booking :=
  journal.transactions.flatMap (Transaction.bookings query)

theorem Transaction.bookings_of_completed (whole : transaction.completed = .ok completed) :
    transaction.bookings query = (query.postings completed).flatMap Posting.bookings := by
  rw [bookings, whole]

namespace Arena

theorem postSelected_eq_book (arena : Arena) (query : Query) (completed : Transaction) :
    arena.postSelected query completed =
      arena.book ((query.postings completed).flatMap Posting.bookings) := by
  rw [book, ← Progress.foldl_flatMap]
  refine congrArg (fun step => Progress.foldl step arena (query.postings completed)) ?_
  funext arena posting
  rw [Posting.bookings, Progress.foldl_map, postAll]

/-- If every transaction can be completed, posting them is booking what the query selects. -/
theorem postTransactions_of_book
    (complete : ∀ transaction ∈ transactions, ∃ completed, transaction.completed = .ok completed)
    (run : arena.book (transactions.flatMap (Transaction.bookings query)) = ⟨last, none⟩) :
    arena.postTransactions query transactions = ⟨last, none⟩ := by
  induction transactions generalizing arena with
  | nil =>
    cases run
    rfl
  | cons transaction transactions ih =>
    obtain ⟨⟨completed, whole⟩, later⟩ := List.forall_mem_cons.mp complete
    rw [List.flatMap_cons, book, Progress.foldl_append, ← book,
      Transaction.bookings_of_completed whole, ← postSelected_eq_book] at run
    have first : (arena.postSelected query completed).fault = none :=
      (Progress.fault_andThen_eq_none_iff.mp (congrArg Progress.fault run)).1
    rw [Progress.andThen_of_done _ first] at run
    have posted : arena.postTransaction query transaction =
        ⟨(arena.postSelected query completed).state, none⟩ := by
      simp [postTransaction, whole, first]
    rw [postTransactions, Progress.foldl_cons_of_done _ (congrArg Progress.fault posted), posted]
    exact ih later run

end Arena

namespace Transaction

/-- What a query selects of a transaction has at most twice the amounts that are written in it, and
none that are finer. -/
theorem grossAt_bookings_le (query : Query) (few : transaction.elisions ≤ 1)
    (bounded : ∀ commodity, Decimal.gross (transaction.amountsOf commodity) < 2 ^ 96)
    (finer : Decimal.largestScale (transaction.amountsOf commodity) ≤ scale) :
    (∀ amount ∈ Balance.amountsIn ((transaction.bookings query).map Booking.entry) commodity,
      amount.scale ≤ scale) ∧
    Decimal.grossAt scale
        (Balance.amountsIn ((transaction.bookings query).map Booking.entry) commodity) ≤
      2 * Decimal.grossAt scale (transaction.amountsOf commodity) := by
  obtain ⟨completed, whole, within⟩ := exists_completed_grossAt_le few bounded
  obtain ⟨scales, double⟩ := within commodity scale finer
  have part : (Balance.amountsIn ((transaction.bookings query).map Booking.entry)
      commodity).Sublist (completed.amountsOf commodity) := by
    rw [bookings_of_completed whole, ← amountsIn_bookings]
    exact (((query.postings_sublist completed).flatMap _).map _).filterMap _
  exact ⟨fun amount member => scales amount (part.subset member),
    (Decimal.grossAt_le_of_sublist scale part).trans double⟩

end Transaction

namespace Journal

variable {journal : Journal}

theorem amountsIn_bookings (journal : Journal) (query : Query) (commodity : Commodity) :
    Balance.amountsIn ((journal.bookings query).map Booking.entry) commodity =
      journal.transactions.flatMap fun transaction =>
        Balance.amountsIn ((transaction.bookings query).map Booking.entry) commodity := by
  rw [bookings, List.map_flatMap, Balance.amountsIn, List.filterMap_flatMap]
  rfl

/-- What is filled in leaves the bookings within bounds. -/
theorem Summable.bounded_bookings (summable : journal.Summable) (query : Query) :
    Booking.Bounded (journal.bookings query) := by
  intro commodity
  have within : ∀ transaction ∈ journal.transactions, _ := fun transaction member =>
    Transaction.grossAt_bookings_le query (summable.elisions transaction member)
      (summable.transaction_bounded member)
      (Decimal.largestScale_le fun amount inside => Decimal.scale_le_largestScale
        ((amountsOf_sublist member commodity).subset inside))
  have finer : Decimal.largestScale
      (Balance.amountsIn ((journal.bookings query).map Booking.entry) commodity) ≤
        Decimal.largestScale (journal.amountsOf commodity) := by
    refine Decimal.largestScale_le fun amount member => ?_
    rw [amountsIn_bookings] at member
    obtain ⟨transaction, inside, member⟩ := List.mem_flatMap.mp member
    exact (within transaction inside).1 amount member
  have double : Decimal.grossAt (Decimal.largestScale (journal.amountsOf commodity))
      (Balance.amountsIn ((journal.bookings query).map Booking.entry) commodity) ≤
        2 * Decimal.gross (journal.amountsOf commodity) := by
    rw [amountsIn_bookings]
    exact Decimal.grossAt_flatMap_le fun transaction member => (within transaction member).2
  have bounded := summable.bounded commodity
  have coarse := Decimal.grossAt_le_of_scale_le finer
    (Balance.amountsIn ((journal.bookings query).map Booking.entry) commodity)
  rw [← Decimal.gross] at coarse
  omega

/-- The account tree of a journal has exactly the bookings that the query selects in it. -/
theorem Summable.accountTree (summable : journal.Summable) (query : Query) :
    ∃ tree, journal.accountTree query = ⟨tree, none⟩ ∧
      tree.Represents (journal.bookings query) := by
  obtain ⟨tree, run, represents⟩ :=
    Account.exists_represents (summable.bounded_bookings query)
  have booked := (∅ : Arena).account_book (journal.bookings query)
  rw [Arena.account_empty, run] at booked
  have done : ((∅ : Arena).book (journal.bookings query)).fault = none :=
    congrArg Progress.fault booked
  have posted := Arena.postTransactions_of_book summable.complete
    (Progress.eq_of_fault_eq_none done)
  refine ⟨tree, ?_, represents⟩
  rw [Journal.accountTree, posted]
  exact congrArg (Progress.mk · none) (congrArg Progress.state booked)

end Journal

end DoubleEntry

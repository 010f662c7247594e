import DoubleEntry.Proofs.Report.Bookings

/-! Filtering loses and duplicates nothing. What a query selects of a transaction and what its
negation selects are all of its postings, each of them once; what one of two queries selects and
what both of them select are what the first selects and what the second selects. The account trees
of these queries add up accordingly, as every tree within bounds has the exact sums of its postings.
-/

namespace DoubleEntry

section

variable [PatternEngine] {query : Query} {transaction : Transaction} {journal : Journal}
  {path : List String} {commodity : Commodity}

namespace Query

/-- The selected postings add up as if all others were worth nothing. -/
theorem sum_postings (query : Query) (transaction : Transaction) (value : Posting → Rat) :
    ((query.postings transaction).map value).sum =
      (transaction.postings.zipIdx.map fun posting =>
        if query.holdsAt transaction posting.2 then value posting.1 else 0).sum := by
  rw [postings_eq_filter, List.map_map]
  induction transaction.postings.zipIdx with
  | nil => rfl
  | cons posting postings ih =>
    rw [List.map_cons, List.sum_cons, ← ih]
    cases holds : query.holdsAt transaction posting.2 <;> simp [holds]

/-- A posting is selected by a query or by its negation. -/
theorem sum_postings_not (query : Query) (transaction : Transaction) (value : Posting → Rat) :
    ((query.postings transaction).map value).sum +
        (((not query).postings transaction).map value).sum =
      ((all.postings transaction).map value).sum := by
  simp only [sum_postings, ← List.sum_map_add]
  refine congrArg List.sum (List.map_congr_left fun posting _ => ?_)
  cases holds : query.holdsAt transaction posting.2 <;> simp [holdsAt, holds]

/-- A posting that both of two queries select counts twice, as it is also selected by either. -/
theorem sum_postings_either (first second : Query) (transaction : Transaction)
    (value : Posting → Rat) :
    (((either [first, second]).postings transaction).map value).sum +
        (((both [first, second]).postings transaction).map value).sum =
      ((first.postings transaction).map value).sum +
        ((second.postings transaction).map value).sum := by
  simp only [sum_postings, ← List.sum_map_add]
  refine congrArg List.sum (List.map_congr_left fun posting _ => ?_)
  cases holds : first.holdsAt transaction posting.2 <;>
    cases holds' : second.holdsAt transaction posting.2 <;>
    simp [holdsAt, anyHoldsAt, allHoldAt, holds, holds']

end Query

namespace Transaction

theorem sumBelow_bookings_not (transaction : Transaction) (query : Query) (path : List String)
    (commodity : Commodity) :
    Booking.sumBelow (transaction.bookings query) path commodity +
        Booking.sumBelow (transaction.bookings (.not query)) path commodity =
      Booking.sumBelow (transaction.bookings .all) path commodity := by
  cases whole : transaction.completed with
  | error error => simp [bookings, whole, Booking.sumBelow, Booking.entriesBelow]
  | ok completed =>
    simp only [bookings_of_completed whole, Booking.sumBelow_flatMap]
    exact query.sum_postings_not completed _

theorem sumBelow_bookings_either (transaction : Transaction) (first second : Query)
    (path : List String) (commodity : Commodity) :
    Booking.sumBelow (transaction.bookings (.either [first, second])) path commodity +
        Booking.sumBelow (transaction.bookings (.both [first, second])) path commodity =
      Booking.sumBelow (transaction.bookings first) path commodity +
        Booking.sumBelow (transaction.bookings second) path commodity := by
  cases whole : transaction.completed with
  | error error => simp [bookings, whole, Booking.sumBelow, Booking.entriesBelow]
  | ok completed =>
    simp only [bookings_of_completed whole, Booking.sumBelow_flatMap]
    exact first.sum_postings_either second completed _

end Transaction

namespace Journal

/-- What the account tree of a query shows of a commodity at a path: the value of the rollup, zero
if there is no such account or if its rollup does not mention the commodity. -/
def figureAt (journal : Journal) (path : List String) (commodity : Commodity) (query : Query) :
    Rat :=
  (((journal.accountTree query).state.accountAt path).rollup.amountOf commodity).value

theorem Summable.figureAt_eq (summable : journal.Summable) (path : List String)
    (commodity : Commodity) (query : Query) :
    journal.figureAt path commodity query =
      Booking.sumBelow (journal.bookings query) path commodity := by
  obtain ⟨tree, run, represents⟩ := summable.accountTree query
  rw [figureAt, run, represents.value_rollup (summable.bounded_bookings query)]

theorem sumBelow_bookings (journal : Journal) (query : Query) (path : List String)
    (commodity : Commodity) :
    Booking.sumBelow (journal.bookings query) path commodity =
      (journal.transactions.map fun transaction =>
        Booking.sumBelow (transaction.bookings query) path commodity).sum := by
  rw [bookings, Booking.sumBelow_flatMap]

/-- Within bounds a journal has an account tree for every query, which shows at every path the exact
sum of the selected postings to it or below it. The trees of a query and of its negation add up to
the tree of all postings, and the trees of either and of both of two queries to the trees of the two.
-/
theorem figureAt_not_and_either (summable : journal.Summable) :
    (∀ query, (journal.accountTree query).fault = none) ∧
    ∀ (path : List String) (commodity : Commodity),
      let figure := journal.figureAt path commodity
      (∀ query, figure query = Booking.sumBelow (journal.bookings query) path commodity) ∧
      ∀ first second : Query,
        figure first + figure (.not first) = figure .all ∧
        figure (.either [first, second]) + figure (.both [first, second]) =
          figure first + figure second := by
  refine ⟨fun query => ?_, fun path commodity => ⟨summable.figureAt_eq path commodity, ?_⟩⟩
  · obtain ⟨tree, run, _⟩ := summable.accountTree query
    rw [run]
  · intro first second
    simp only [summable.figureAt_eq, sumBelow_bookings, ← List.sum_map_add,
      Transaction.sumBelow_bookings_not, Transaction.sumBelow_bookings_either, and_self]

end Journal

end

namespace Journal

def cash : Query := .account ⟨"Cash", _, rfl⟩

def transfers : Query := .payee ⟨"Transfer", _, rfl⟩

/-- Of 20.50 euros that go from one account to another, the first query selects the one side and the
second query both. -/
theorem figureAt_not_and_either_trip :
    trip.Summable ∧ (trip.accountTree (.not cash)).fault = none ∧
    let figure := trip.figureAt ["Asset"] ⟨" EUR", false⟩
    figure cash = 41 / 2 ∧ figure transfers = 0 ∧
    41 / 2 + figure (.not cash) = figure .all ∧
    figure (.either [cash, transfers]) + figure (.both [cash, transfers]) = 41 / 2 + 0 := by
  have summable : trip.Summable := by
    refine ⟨by decide, bounded_of_mentioned ?_⟩
    decide
  obtain ⟨done, sums⟩ := figureAt_not_and_either summable
  obtain ⟨_, combined⟩ := sums ["Asset"] ⟨" EUR", false⟩
  obtain ⟨split, overlap⟩ := combined cash transfers
  have cashFigure : trip.figureAt ["Asset"] ⟨" EUR", false⟩ cash = 41 / 2 := by decide +kernel
  have transferFigure : trip.figureAt ["Asset"] ⟨" EUR", false⟩ transfers = 0 := by decide +kernel
  rw [cashFigure] at split overlap
  rw [transferFigure] at overlap
  exact ⟨summable, done _, cashFigure, transferFigure, split, overlap⟩

end Journal

end DoubleEntry

import DoubleEntry.Proofs.AccountTree.Figures
import DoubleEntry.Proofs.Report.Bookings
import DoubleEntry.Sorting

/-! Balance reports do not depend on the order of the transactions. The additions are made in
another order, but within bounds none of them rounds; and the accounts are opened in another order,
but the rows are in the order of the names. -/

namespace DoubleEntry

def BalanceReport.figures (report : BalanceReport) : List (Nat × String × Figures) × Figures :=
  (report.entries.map AccountRow.figures, report.total.figures)

variable {tree otherTree : Account} {bookings others : List Booking}
  {journal other : Journal}

/-- Reports on the same bookings show the same. -/
theorem Account.Represents.figures_ofAccount_perm (represents : tree.Represents bookings)
    (represents' : otherTree.Represents others) (permuted : others.Perm bookings)
    (bounded : Booking.Bounded bookings) :
    (BalanceReport.ofAccount otherTree).figures = (BalanceReport.ofAccount tree).figures := by
  have rows := represents.rows_perm represents' permuted bounded
  have total : otherTree.rollup.figures = tree.rollup.figures :=
    Option.some.inj (represents.figuresAt_perm represents' permuted bounded [])
  simp only [BalanceReport.figures, BalanceReport.ofAccount, List.map_tail, rows, total]

namespace Journal

theorem balanceReport_of_accountTree [PatternEngine] {query : Query}
    (run : journal.accountTree query = ⟨tree, none⟩) :
    journal.balanceReport query = .ok (.ofAccount tree) := by
  rw [balanceReport, Progress.toExcept_eq_ok_iff.mpr run]
  rfl

theorem sort_perm (journal : Journal) (terms : List SortTerm) :
    (journal.sort terms).transactions.Perm journal.transactions :=
  List.mergeSort_perm journal.transactions _

/-- Within bounds a journal has a balance report for every query, and it has one that shows the same
after its transactions have been put into another order, by sorting them or in any other way. -/
theorem balanceReport_perm [PatternEngine] (summable : journal.Summable) (query : Query) :
    ∃ report, journal.balanceReport query = .ok report ∧
      (∀ other : Journal, other.transactions.Perm journal.transactions →
        ∃ reordered, other.balanceReport query = .ok reordered ∧
          reordered.figures = report.figures) ∧
      ∀ terms, ∃ sorted, (journal.sort terms).balanceReport query = .ok sorted ∧
        sorted.figures = report.figures := by
  obtain ⟨tree, run, represents⟩ := summable.accountTree query
  have reordered (other : Journal) (permuted : other.transactions.Perm journal.transactions) :
      ∃ reordered, other.balanceReport query = .ok reordered ∧
        reordered.figures = (BalanceReport.ofAccount tree).figures := by
    obtain ⟨otherTree, otherRun, represents'⟩ := (summable.perm permuted).accountTree query
    have bookings : (other.bookings query).Perm (journal.bookings query) :=
      permuted.flatMap_right _
    exact ⟨_, balanceReport_of_accountTree otherRun,
      represents.figures_ofAccount_perm represents' bookings (summable.bounded_bookings query)⟩
  exact ⟨_, balanceReport_of_accountTree run, reordered,
    fun terms => reordered _ (journal.sort_perm terms)⟩

/-- A salary, a purchase and its return, the latest of them first. -/
def lastFirst : Journal :=
  let dollars (amount : String) : Option Balance := some (.single ⟨"$", true⟩ (.spelled amount))
  { transactions := [
      ⟨⟨2014, 7, 3, by decide⟩, "Salary", [⟨["Bank", "Giro"], dollars "5"⟩, ⟨["Income"], none⟩]⟩,
      ⟨⟨2014, 7, 2, by decide⟩, "Shop",
        [⟨["Bank", "Giro"], dollars "-1.50"⟩, ⟨["Expense"], dollars "1.50"⟩]⟩,
      ⟨⟨2014, 7, 1, by decide⟩, "Shop", [⟨["Expense"], none⟩, ⟨["Bank", "Giro"], dollars "1.50"⟩]⟩] }

/-- With the transactions in reverse, the bank account has the same value in fewer digits. -/
theorem balanceReport_perm_lastFirst :
    lastFirst.Summable ∧ ∃ report reversed sorted,
      lastFirst.balanceReport .all = .ok report ∧
      ({ transactions := lastFirst.transactions.reverse } : Journal).balanceReport .all =
        .ok reversed ∧
      (lastFirst.sort [⟨.date, false⟩]).balanceReport .all = .ok sorted ∧
      report.entries.length = 3 ∧ reversed.entries ≠ report.entries ∧
      reversed.figures = report.figures ∧ sorted.figures = report.figures := by
  have summable : lastFirst.Summable := by
    refine ⟨by decide, bounded_of_mentioned ?_⟩
    decide
  obtain ⟨report, reported, reordered, sorting⟩ := balanceReport_perm summable .all
  obtain ⟨reversed, reversedReported, reversedFigures⟩ :=
    reordered { transactions := lastFirst.transactions.reverse } (List.reverse_perm _)
  obtain ⟨sorted, sortedReported, sortedFigures⟩ := sorting [⟨.date, false⟩]
  have three : (lastFirst.balanceReport .all).map (·.entries.length) = .ok 3 := by decide
  have apart : (({ transactions := lastFirst.transactions.reverse } : Journal).balanceReport
      .all).map (·.entries) ≠ (lastFirst.balanceReport .all).map (·.entries) := by decide
  rw [reported] at three apart
  rw [reversedReported] at apart
  refine ⟨summable, report, reversed, sorted, reported, reversedReported, sortedReported, ?_, ?_,
    reversedFigures, sortedFigures⟩
  · exact Except.ok.inj three
  · exact fun same => apart (congrArg Except.ok same)

end Journal

end DoubleEntry

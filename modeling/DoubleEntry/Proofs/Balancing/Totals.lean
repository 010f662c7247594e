import DoubleEntry.Balancing
import DoubleEntry.Journal
import DoubleEntry.Proofs.Balance.Posting
import DoubleEntry.Proofs.SortedMap

/-! The totals of a transaction: for every commodity, the running sum of its amounts. -/

namespace DoubleEntry

theorem Balance.isZero_iff (balance : Balance) :
    balance.isZero = true ↔ ∀ commodity, (balance.amountOf commodity).value = 0 := by
  rw [isZero, List.all_eq_true]
  constructor
  · intro zero commodity
    cases found : balance.find? commodity with
    | none => simp [amountOf, found]
    | some amount =>
      have member : amount ∈ balance.values :=
        List.mem_map.mpr ⟨(commodity, amount), SortedMap.mem_entries_iff.mpr found, rfl⟩
      rw [amountOf, found]
      exact (Decimal.value_eq_zero_iff amount).mpr (zero amount member)
  · intro zero amount member
    obtain ⟨⟨commodity, _⟩, inside, rfl⟩ := List.mem_map.mp member
    have value := zero commodity
    rw [amountOf, SortedMap.mem_entries_iff.mp inside] at value
    exact (Decimal.value_eq_zero_iff _).mp value

namespace Transaction

/-- The amounts of a commodity that are written, posting by posting. -/
def amountsOf (transaction : Transaction) (commodity : Commodity) : List Decimal :=
  transaction.postings.filterMap fun posting => posting.amounts.bind (·.find? commodity)

def exactSum (transaction : Transaction) (commodity : Commodity) : Rat :=
  Decimal.exactSum (transaction.amountsOf commodity)

def commodities (transaction : Transaction) : List Commodity :=
  transaction.postings.flatMap Journal.commoditiesOf

def written (transaction : Transaction) : List (Commodity × Decimal) :=
  (transaction.postings.filterMap Posting.amounts).flatMap SortedMap.entries

variable {transaction : Transaction} {commodity : Commodity} {totals : Balance}

theorem totals_eq (transaction : Transaction) :
    transaction.totals = (Balance.postAll ∅ transaction.written).toExcept := by
  rw [totals, written, Balance.postAll, ← Progress.foldl_flatMap]
  rfl

theorem written_eq (transaction : Transaction) :
    transaction.written =
      transaction.postings.flatMap fun posting => (posting.amounts.getD ∅).entries := by
  rw [written]
  induction transaction.postings with
  | nil => rfl
  | cons posting postings ih =>
    cases amounts : posting.amounts with
    | none =>
      rw [List.filterMap_cons_none amounts, List.flatMap_cons, amounts, ih]
      rfl
    | some written =>
      rw [List.filterMap_cons_some amounts, List.flatMap_cons, List.flatMap_cons, amounts, ih]
      rfl

theorem amountsIn_written (transaction : Transaction) (commodity : Commodity) :
    Balance.amountsIn transaction.written commodity = transaction.amountsOf commodity := by
  rw [written, amountsOf]
  induction transaction.postings with
  | nil => rfl
  | cons posting postings ih =>
    cases amounts : posting.amounts with
    | none =>
      rw [List.filterMap_cons_none amounts, List.filterMap_cons_none (by simp [amounts]), ih]
    | some balance =>
      have found := SortedMap.filterMap_entries balance commodity
      rw [List.filterMap_cons_some amounts, List.flatMap_cons, Balance.amountsIn,
        List.filterMap_append, found, ← Balance.amountsIn, ih]
      cases present : balance.find? commodity with
      | none =>
        rw [List.filterMap_cons_none (by simp [amounts, present])]
        rfl
      | some amount =>
        rw [List.filterMap_cons_some (b := amount) (by simp [amounts, present])]
        rfl

theorem postAll_written_of_totals (summed : transaction.totals = .ok totals) :
    Balance.postAll ∅ transaction.written = ⟨totals, none⟩ :=
  Progress.toExcept_eq_ok_iff.mp (totals_eq transaction ▸ summed)

theorem sumFrom?_amountsOf (summed : transaction.totals = .ok totals) (commodity : Commodity) :
    Decimal.sumFrom? .zero (transaction.amountsOf commodity) =
      some (totals.amountOf commodity) := by
  have run := postAll_written_of_totals summed
  have sum := Balance.sumFrom?_postAll (by rw [run]) commodity
  rwa [run, amountsIn_written] at sum

theorem exists_totals (sums : ∀ commodity, ∃ sum,
    Decimal.sumFrom? .zero (transaction.amountsOf commodity) = some sum) :
    ∃ totals, transaction.totals = .ok totals := by
  have done : (Balance.postAll ∅ transaction.written).fault = none := by
    refine Balance.fault_postAll_eq_none fun commodity => ?_
    rw [amountsIn_written]
    exact sums commodity
  exact ⟨_, (totals_eq transaction).trans
    (Progress.toExcept_eq_ok_iff.mpr (Progress.eq_of_fault_eq_none done))⟩

theorem amountsOf_ne_nil_iff :
    transaction.amountsOf commodity ≠ [] ↔ commodity ∈ transaction.commodities := by
  rw [Ne, amountsOf, List.filterMap_eq_nil_iff, commodities, List.mem_flatMap]
  constructor
  · intro some
    by_contra absent
    refine some fun posting member => ?_
    by_contra present
    refine absent ⟨posting, member, ?_⟩
    cases amounts : posting.amounts with
    | none => simp [amounts] at present
    | some balance =>
      rw [Journal.commoditiesOf, amounts]
      rw [amounts, Option.bind_some] at present
      exact SortedMap.mem_keys_iff.mpr (Option.isSome_iff_ne_none.mpr present)
  · rintro ⟨posting, member, mentioned⟩ none
    cases amounts : posting.amounts with
    | none => simp [Journal.commoditiesOf, amounts] at mentioned
    | some balance =>
      rw [Journal.commoditiesOf, amounts] at mentioned
      have found := SortedMap.mem_keys_iff.mp mentioned
      have absent := none posting member
      rw [amounts, Option.bind_some] at absent
      rw [absent] at found
      cases found

theorem isSome_find?_totals (summed : transaction.totals = .ok totals) (commodity : Commodity) :
    (totals.find? commodity).isSome ↔ commodity ∈ transaction.commodities := by
  have run := postAll_written_of_totals summed
  have mentioned := Balance.isSome_find?_postAll (by rw [run]) commodity
  rw [run, amountsIn_written, amountsOf_ne_nil_iff] at mentioned
  simpa using mentioned

theorem length_totals (summed : transaction.totals = .ok totals) :
    totals.entries.length = transaction.commodities.toFinset.card :=
  SortedMap.length_entries (isSome_find?_totals summed)

/-- Amounts within bounds are summed up exactly, whatever their order and their signs. -/
theorem exists_totals_of_gross_lt
    (bounded : ∀ commodity, Decimal.gross (transaction.amountsOf commodity) < 2 ^ 96) :
    ∃ totals, transaction.totals = .ok totals ∧ ∀ commodity,
      Decimal.IsSum (transaction.amountsOf commodity) (totals.amountOf commodity) := by
  have sums (commodity : Commodity) := Decimal.sumFrom?_of_gross_lt (bounded commodity)
  obtain ⟨totals, summed⟩ := exists_totals fun commodity => (sums commodity).imp fun _ => And.left
  refine ⟨totals, summed, fun commodity => ?_⟩
  obtain ⟨sum, sumEq, exact⟩ := sums commodity
  have total := (sumFrom?_amountsOf summed commodity).symm.trans sumEq
  rw [Option.some.inj total]
  exact exact

end Transaction

end DoubleEntry

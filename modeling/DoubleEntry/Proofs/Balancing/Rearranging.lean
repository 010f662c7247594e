import DoubleEntry.Proofs.AccountTree.Figures
import DoubleEntry.Proofs.Balancing.Completion
import DoubleEntry.Proofs.Query.Selection

/-! Balancing does not depend on the order of the postings. In another order other sums are made on
the way, and they may have other digits; but within bounds none of them rounds, so that the totals
have the same values, acceptance is the same, and so is what is left over for the elided posting. -/

namespace DoubleEntry

variable {transaction other whole : Transaction} {order : List Nat} {totals : Balance}
  {first second : Balance}

theorem Balance.find?_figures_neg (balance : Balance) (commodity : Commodity) :
    balance.neg.figures.find? commodity = (balance.figures.find? commodity).map (- ·) := by
  simp only [figures, neg, SortedMap.find?_mapValues, Option.map_map]
  congr 1
  funext amount
  exact Decimal.value_neg amount

theorem Balance.figures_neg (same : first.figures = second.figures) :
    first.neg.figures = second.neg.figures :=
  SortedMap.ext_find? fun commodity => by rw [find?_figures_neg, find?_figures_neg, same]

/-- What a posting states, its amounts by value. -/
def Posting.figures (posting : Posting) : List String × Option Figures :=
  (posting.account, posting.amounts.map Balance.figures)

namespace Transaction

/-- What a transaction states, its amounts by value. -/
def figures (transaction : Transaction) : Date × String × List (List String × Option Figures) :=
  (transaction.date, transaction.description, transaction.postings.map Posting.figures)

/-- The transaction with its postings in another order, given by the numbers that they have. -/
def rearranged (transaction : Transaction) (order : List Nat) : Transaction :=
  { transaction with postings := order.filterMap (transaction.postings[·]?) }

theorem postings_rearranged_perm (permuted : order.Perm (List.range transaction.postings.length)) :
    (transaction.rearranged order).postings.Perm transaction.postings := by
  have whole : (List.range transaction.postings.length).filterMap (transaction.postings[·]?) =
      transaction.postings := by
    simpa using Query.filterMap_range_filter transaction.postings fun _ => true
  have numbered := permuted.filterMap (transaction.postings[·]?)
  rwa [whole] at numbered

/-! What is the same in every order. -/

theorem amountsOf_perm (permuted : other.postings.Perm transaction.postings)
    (commodity : Commodity) :
    (other.amountsOf commodity).Perm (transaction.amountsOf commodity) :=
  permuted.filterMap _

theorem written_perm (permuted : other.postings.Perm transaction.postings) :
    other.written.Perm transaction.written :=
  (permuted.filterMap _).flatMap_right _

theorem gross_lt_of_perm {limit : Nat}
    (bounded : ∀ commodity, Decimal.gross (transaction.amountsOf commodity) < limit)
    (permuted : other.postings.Perm transaction.postings) (commodity : Commodity) :
    Decimal.gross (other.amountsOf commodity) < limit := by
  rw [Decimal.gross_perm (amountsOf_perm permuted commodity)]
  exact bounded commodity

theorem exactSum_of_perm (permuted : other.postings.Perm transaction.postings)
    (commodity : Commodity) : other.exactSum commodity = transaction.exactSum commodity :=
  Decimal.exactSum_perm (amountsOf_perm permuted commodity)

theorem card_commodities_of_perm (permuted : other.postings.Perm transaction.postings) :
    other.commodities.toFinset.card = transaction.commodities.toFinset.card :=
  congrArg Finset.card (List.toFinset_eq_of_perm _ _ (permuted.flatMap_right _))

theorem elisions_of_perm (permuted : other.postings.Perm transaction.postings) :
    other.elisions = transaction.elisions :=
  permuted.countP_eq _

/-! Totals and acceptance within bounds. -/

/-- The totals are the exact sums of the commodities that are mentioned. -/
theorem find?_figures_totals
    (bounded : ∀ commodity, Decimal.gross (transaction.amountsOf commodity) < 2 ^ 96)
    (summed : transaction.totals = .ok totals) (commodity : Commodity) :
    totals.figures.find? commodity =
      if commodity ∈ transaction.commodities then some (transaction.exactSum commodity)
      else none := by
  have within : Decimal.gross (Balance.amountsIn transaction.written commodity) < 2 ^ 96 := by
    rw [amountsIn_written]
    exact bounded commodity
  rw [Balance.find?_figures_postAll (postAll_written_of_totals summed) within, amountsIn_written,
    ← exactSum]
  by_cases mentioned : commodity ∈ transaction.commodities
  · rw [if_pos mentioned, if_neg (amountsOf_ne_nil_iff.mpr mentioned)]
  · rw [if_neg mentioned, if_pos (not_not.mp (mt amountsOf_ne_nil_iff.mp mentioned))]

/-- A transaction is accepted if a posting is elided, if it exchanges two commodities, or if it
balances. -/
theorem isBalanced_iff
    (bounded : ∀ commodity, Decimal.gross (transaction.amountsOf commodity) < 2 ^ 96) :
    transaction.isBalanced = true ↔
      (∃ posting ∈ transaction.postings, posting.isElided = true) ∨
      transaction.commodities.toFinset.card = 2 ∨
      ∀ commodity, transaction.exactSum commodity = 0 := by
  by_cases elided : ∃ posting ∈ transaction.postings, posting.isElided = true
  · have some : transaction.postings.any Posting.isElided = true := List.any_eq_true.mpr elided
    exact iff_of_true (by simp [isBalanced, some]) (.inl elided)
  · have complete : ∀ posting ∈ transaction.postings, posting.isElided = false := by
      simpa using elided
    obtain ⟨totals, summed, exact⟩ := exists_totals_of_gross_lt bounded
    have zero : totals.isZero = true ↔ ∀ commodity, transaction.exactSum commodity = 0 := by
      rw [Balance.isZero_iff]
      exact forall_congr' fun commodity => by rw [(exact commodity).value_eq, ← exactSum]
    rw [or_iff_right elided, isBalanced_of_complete complete, summed, ← length_totals summed,
      ← zero]
    simp

/-- It is enough that the commodities that are mentioned stay within the bound. -/
theorem gross_lt_of_mentioned
    (mentioned : ∀ commodity ∈ transaction.commodities,
      Decimal.gross (transaction.amountsOf commodity) < 2 ^ 95) (commodity : Commodity) :
    Decimal.gross (transaction.amountsOf commodity) < 2 ^ 95 := by
  by_cases member : commodity ∈ transaction.commodities
  · exact mentioned commodity member
  · rw [not_not.mp (mt amountsOf_ne_nil_iff.mp member)]
    decide

theorem isBalanced_of_perm
    (bounded : ∀ commodity, Decimal.gross (transaction.amountsOf commodity) < 2 ^ 96)
    (permuted : other.postings.Perm transaction.postings) :
    other.isBalanced = transaction.isBalanced := by
  rw [Bool.eq_iff_iff, isBalanced_iff bounded, isBalanced_iff (gross_lt_of_perm bounded permuted),
    card_commodities_of_perm permuted]
  simp only [permuted.mem_iff, exactSum_of_perm permuted]

/-- In another order a transaction has totals of the same values. -/
theorem exists_totals_of_perm
    (bounded : ∀ commodity, Decimal.gross (transaction.amountsOf commodity) < 2 ^ 96)
    (permuted : other.postings.Perm transaction.postings) :
    ∃ totals reordered, transaction.totals = .ok totals ∧ other.totals = .ok reordered ∧
      reordered.figures = totals.figures := by
  obtain ⟨totals, summed, _⟩ := exists_totals_of_gross_lt bounded
  obtain ⟨reordered, resummed, _⟩ :=
    exists_totals_of_gross_lt (gross_lt_of_perm bounded permuted)
  refine ⟨totals, reordered, summed, resummed, ?_⟩
  refine Balance.figures_postAll_perm (written_perm permuted) (fun commodity => ?_)
    (postAll_written_of_totals summed) (postAll_written_of_totals resummed)
  rw [amountsIn_written]
  exact bounded commodity

/-! Completion. -/

theorem rearranged_fill (transaction : Transaction) (amounts : Balance) (order : List Nat) :
    (transaction.fill amounts).rearranged order =
      (transaction.rearranged order).fill amounts := by
  simp only [rearranged, fill, List.map_filterMap, List.getElem?_map]

theorem figures_fill (transaction : Transaction) (same : first.figures = second.figures) :
    (transaction.fill first).figures = (transaction.fill second).figures := by
  simp only [figures, fill, List.map_map, Prod.mk.injEq, true_and]
  refine List.map_congr_left fun posting _ => ?_
  simp only [Function.comp_apply]
  split
  · simp only [Posting.figures, Option.map_some, same]
  · rfl

/-- In another order a transaction is completed to the same, in that order. -/
theorem completed_rearranged
    (bounded : ∀ commodity, Decimal.gross (transaction.amountsOf commodity) < 2 ^ 96)
    (permuted : order.Perm (List.range transaction.postings.length)) :
    (∃ error, transaction.completed = .error error ∧
      (transaction.rearranged order).completed = .error error) ∨
    ∃ whole reordered, transaction.completed = .ok whole ∧
      (transaction.rearranged order).completed = .ok reordered ∧
      reordered.figures = (whole.rearranged order).figures := by
  have postings := postings_rearranged_perm permuted
  have elisions := elisions_of_perm postings
  rcases Nat.lt_trichotomy transaction.elisions 1 with none | one | many
  · have none : transaction.elisions = 0 := by omega
    exact .inr ⟨_, _, completed_of_elisions_eq_zero none,
      completed_of_elisions_eq_zero (elisions.trans none), rfl⟩
  · obtain ⟨totals, reordered, summed, resummed, same⟩ :=
      exists_totals_of_perm bounded postings
    refine .inr ⟨transaction.fill totals.neg, (transaction.rearranged order).fill reordered.neg,
      ?_, ?_, ?_⟩
    · rw [completed_of_elisions_eq_one one, summed]
    · rw [completed_of_elisions_eq_one (elisions.trans one), resummed]
    · rw [rearranged_fill]
      exact figures_fill _ (Balance.figures_neg same)
  · refine .inl ⟨_, completed_of_two_le_elisions many, ?_⟩
    rw [completed_of_two_le_elisions (elisions ▸ many), elisions]
    rfl

/-- Within bounds a transaction has totals, and they are the exact sums of its commodities in
whatever order its postings stand. In every order it is accepted or not, namely if a posting is
elided, if there are two commodities or if every sum is zero; and in every order it cannot be
completed or is completed to the same postings in that order, their amounts equal by value. -/
theorem balancing_rearranged
    (bounded : ∀ commodity, Decimal.gross (transaction.amountsOf commodity) < 2 ^ 95)
    (permuted : order.Perm (List.range transaction.postings.length)) :
    (∃ totals reordered, transaction.totals = .ok totals ∧
      (transaction.rearranged order).totals = .ok reordered ∧
      reordered.figures = totals.figures ∧
      ∀ commodity, totals.figures.find? commodity =
        if commodity ∈ transaction.commodities then some (transaction.exactSum commodity)
        else none) ∧
    (transaction.rearranged order).isBalanced = transaction.isBalanced ∧
    (transaction.isBalanced = true ↔
      (∃ posting ∈ transaction.postings, posting.isElided = true) ∨
      transaction.commodities.toFinset.card = 2 ∨
      ∀ commodity, transaction.exactSum commodity = 0) ∧
    ((∃ error, transaction.completed = .error error ∧
      (transaction.rearranged order).completed = .error error) ∨
    ∃ whole reordered, transaction.completed = .ok whole ∧
      (transaction.rearranged order).completed = .ok reordered ∧
      reordered.figures = (whole.rearranged order).figures) := by
  have within : ∀ commodity, Decimal.gross (transaction.amountsOf commodity) < 2 ^ 96 :=
    fun commodity => (bounded commodity).trans (by decide)
  have postings := postings_rearranged_perm permuted
  obtain ⟨totals, reordered, summed, resummed, same⟩ := exists_totals_of_perm within postings
  exact ⟨⟨totals, reordered, summed, resummed, same, find?_figures_totals within summed⟩,
    isBalanced_of_perm within postings, isBalanced_iff within,
    completed_rearranged within permuted⟩

/-- A purchase that is returned, with a tip. In the order in which they stand, the dollars of the
purchase cancel out before those of the tip come in. -/
def returned : Transaction :=
  let dollars (amount : String) : Option Balance := some (.single ⟨"$", true⟩ (.spelled amount))
  { date := default
    description := "Shop"
    postings := [⟨["Goods"], dollars "1.50"⟩, ⟨["Bank"], none⟩, ⟨["Goods"], dollars "-1.5"⟩,
      ⟨["Tip"], dollars "2"⟩] }

/-- With the tip in front, what is left over has more digits. -/
theorem balancing_rearranged_tipFirst :
    (∀ commodity, Decimal.gross (returned.amountsOf commodity) < 2 ^ 95) ∧
    [3, 1, 0, 2].Perm (List.range returned.postings.length) ∧
    (returned.rearranged [3, 1, 0, 2]).isBalanced = true ∧
    ∃ whole reordered, returned.completed = .ok whole ∧
      (returned.rearranged [3, 1, 0, 2]).completed = .ok reordered ∧
      reordered ≠ whole.rearranged [3, 1, 0, 2] ∧
      reordered.figures = (whole.rearranged [3, 1, 0, 2]).figures := by
  have bounded : ∀ commodity, Decimal.gross (returned.amountsOf commodity) < 2 ^ 95 :=
    gross_lt_of_mentioned (by decide)
  have permuted : [3, 1, 0, 2].Perm (List.range returned.postings.length) := by decide
  obtain ⟨_, same, accepted, completed⟩ := balancing_rearranged bounded permuted
  have balanced : returned.isBalanced = true := accepted.mpr (.inl (by decide))
  have apart : returned.completed.map (·.rearranged [3, 1, 0, 2]) ≠
      (returned.rearranged [3, 1, 0, 2]).completed := by decide
  have one : returned.elisions = 1 := by decide
  refine ⟨bounded, permuted, same.trans balanced, ?_⟩
  obtain ⟨error, failed, _⟩ | ⟨whole, reordered, done, redone, figures⟩ := completed
  · obtain ⟨whole, done, _⟩ := completed_of_gross_lt one bounded
    cases done.symm.trans failed
  · rw [done, redone] at apart
    exact ⟨whole, reordered, done, redone, fun equal => apart (congrArg Except.ok equal.symm),
      figures⟩

end Transaction

end DoubleEntry

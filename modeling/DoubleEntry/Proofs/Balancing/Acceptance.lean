import DoubleEntry.Proofs.Balancing.Totals

/-! When a transaction with all its amounts is accepted. Acceptance looks at running sums, which may
round, so an accepted transaction balances exactly as far as the roundings on the way cancel out. -/

namespace DoubleEntry

namespace Transaction

/-- How far each addition of a commodity's running sum is off, posting by posting. -/
def roundings (transaction : Transaction) (commodity : Commodity) : List Rat :=
  Decimal.roundings .zero (transaction.amountsOf commodity)

variable {transaction : Transaction} {commodity : Commodity} {totals : Balance}

/-- A total is the exact sum of its commodity and the roundings on the way. -/
theorem value_amountOf_totals (summed : transaction.totals = .ok totals) (commodity : Commodity) :
    (totals.amountOf commodity).value =
      transaction.exactSum commodity + (transaction.roundings commodity).sum := by
  have total := Decimal.value_of_sumFrom? (sumFrom?_amountsOf summed commodity)
  rwa [Decimal.value_zero, zero_add] at total

/-- With all its amounts, a transaction is accepted by its totals. -/
theorem isBalanced_of_complete
    (complete : ∀ posting ∈ transaction.postings, posting.isElided = false) :
    transaction.isBalanced = match transaction.totals with
      | .error _ => false
      | .ok totals => totals.entries.length == 2 || totals.isZero := by
  have none : transaction.postings.any Posting.isElided = false := by
    rw [List.any_eq_false]
    intro posting member
    simp [complete posting member]
  cases summed : transaction.totals <;> simp [isBalanced, none, summed]

/-- Without an elided posting and without an exchange of two commodities, every total is zero. -/
theorem isBalanced_iff_totals
    (complete : ∀ posting ∈ transaction.postings, posting.isElided = false)
    (noExchange : transaction.commodities.toFinset.card ≠ 2) :
    transaction.isBalanced = true ↔ ∃ totals, transaction.totals = .ok totals ∧
      ∀ commodity, (totals.amountOf commodity).value = 0 := by
  rw [isBalanced_of_complete complete]
  cases summed : transaction.totals with
  | error overflow => simp
  | ok totals =>
    have notTwo : (totals.entries.length == 2) = false := by
      rw [length_totals summed]
      exact beq_false_of_ne noExchange
    simp [notTwo, Balance.isZero_iff]

/-- A running sum whose every partial sum is the value of a decimal is exact. -/
theorem exists_exact_totals
    (exact : ∀ commodity first, first <+: transaction.amountsOf commodity →
      ∃ d : Decimal, d.value = Decimal.exactSum first) :
    ∃ totals, transaction.totals = .ok totals ∧
      ∀ commodity, (totals.amountOf commodity).value = transaction.exactSum commodity := by
  have sums (commodity : Commodity) : ∃ sum,
      Decimal.sumFrom? .zero (transaction.amountsOf commodity) = some sum ∧
        sum.value = transaction.exactSum commodity := by
    have onTheWay : ∀ first, first <+: transaction.amountsOf commodity →
        ∃ d : Decimal, d.value = Decimal.zero.value + Decimal.exactSum first := by
      simpa only [Decimal.value_zero, zero_add] using exact commodity
    obtain ⟨sum, summed, same, _⟩ := Decimal.sumFrom?_exact onTheWay
    rw [Decimal.value_zero, zero_add] at same
    exact ⟨sum, summed, same⟩
  obtain ⟨totals, summed⟩ := exists_totals fun commodity => (sums commodity).imp fun _ => And.left
  refine ⟨totals, summed, fun commodity => ?_⟩
  obtain ⟨sum, sumEq, same⟩ := sums commodity
  have total := (sumFrom?_amountsOf summed commodity).symm.trans sumEq
  rw [Option.some.inj total, same]

/-- Three postings in dollars that leave over ten cents: next to the largest amount there is no
room for a fractional digit. -/
def roundedAway : Transaction :=
  let dollars (amount : String) : Option Balance := some (.single ⟨"$", true⟩ (.spelled amount))
  { date := default
    description := "Rounding"
    postings := [⟨["Asset"], dollars "79228162514264337593543950335"⟩, ⟨["Income"], dollars "0.1"⟩,
      ⟨["Expense"], dollars "-79228162514264337593543950335"⟩] }

/-- Acceptance does not imply balance: what was rounded away on the way is not missed. -/
theorem exists_isBalanced_exactSum_ne_zero :
    ∃ transaction : Transaction,
      (∀ posting ∈ transaction.postings, posting.isElided = false) ∧
      transaction.commodities.toFinset.card ≠ 2 ∧
      transaction.isBalanced = true ∧
      ∃ commodity, transaction.exactSum commodity ≠ 0 := by
  refine ⟨roundedAway, by decide, by decide, by decide, ⟨"$", true⟩, ?_⟩
  decide +kernel

/-- A transaction with all its amounts that exchanges no two commodities is accepted exactly if its
totals exist and every exact sum is undone by the roundings on the way. So an accepted transaction
balances exactly if these cancel out; and where no addition has to round, a transaction is accepted
exactly if it balances. -/
theorem isBalanced_iff_roundings
    (complete : ∀ posting ∈ transaction.postings, posting.isElided = false)
    (noExchange : transaction.commodities.toFinset.card ≠ 2) :
    (transaction.isBalanced = true ↔
      (∀ commodity, ∃ sum,
        Decimal.sumFrom? .zero (transaction.amountsOf commodity) = some sum) ∧
      ∀ commodity, transaction.exactSum commodity + (transaction.roundings commodity).sum = 0) ∧
    (transaction.isBalanced = true →
      ((∀ commodity, transaction.exactSum commodity = 0) ↔
        ∀ commodity, (transaction.roundings commodity).sum = 0)) ∧
    ((∀ commodity first, first <+: transaction.amountsOf commodity →
        ∃ d : Decimal, d.value = Decimal.exactSum first) →
      (transaction.isBalanced = true ↔ ∀ commodity, transaction.exactSum commodity = 0)) := by
  have accepted := isBalanced_iff_totals complete noExchange
  have characterized : transaction.isBalanced = true ↔
      (∀ commodity, ∃ sum,
        Decimal.sumFrom? .zero (transaction.amountsOf commodity) = some sum) ∧
      ∀ commodity, transaction.exactSum commodity + (transaction.roundings commodity).sum = 0 := by
    rw [accepted]
    constructor
    · rintro ⟨totals, summed, zero⟩
      refine ⟨fun commodity => ⟨_, sumFrom?_amountsOf summed commodity⟩, fun commodity => ?_⟩
      rw [← value_amountOf_totals summed, zero]
    · rintro ⟨sums, undone⟩
      obtain ⟨totals, summed⟩ := exists_totals sums
      refine ⟨totals, summed, fun commodity => ?_⟩
      rw [value_amountOf_totals summed, undone]
  refine ⟨characterized, fun balanced => ?_, fun exact => ?_⟩
  · obtain ⟨_, undone⟩ := characterized.mp balanced
    refine forall_congr' fun commodity => ?_
    have sum := undone commodity
    constructor
    · intro zero
      rwa [zero, zero_add] at sum
    · intro zero
      rwa [zero, add_zero] at sum
  · obtain ⟨totals, summed, same⟩ := exists_exact_totals exact
    rw [accepted]
    constructor
    · rintro ⟨_, again, zero⟩ commodity
      cases Except.ok.inj (summed.symm.trans again)
      rw [← same, zero]
    · intro zero
      exact ⟨totals, summed, fun commodity => by rw [same, zero]⟩

theorem roundedAway_roundings :
    (∀ posting ∈ roundedAway.postings, posting.isElided = false) ∧
    roundedAway.commodities.toFinset.card ≠ 2 ∧
    roundedAway.isBalanced = true ∧
    roundedAway.exactSum ⟨"$", true⟩ = 1 / 10 ∧
    roundedAway.exactSum ⟨"$", true⟩ + (roundedAway.roundings ⟨"$", true⟩).sum = 0 ∧
    ¬ ∀ commodity, (roundedAway.roundings commodity).sum = 0 := by
  have complete : ∀ posting ∈ roundedAway.postings, posting.isElided = false := by decide
  have noExchange : roundedAway.commodities.toFinset.card ≠ 2 := by decide
  have accepted : roundedAway.isBalanced = true := by decide
  have sum : roundedAway.exactSum ⟨"$", true⟩ = 1 / 10 := by decide +kernel
  obtain ⟨undone, cancel, _⟩ := isBalanced_iff_roundings complete noExchange
  refine ⟨complete, noExchange, accepted, sum, (undone.mp accepted).2 _, fun none => ?_⟩
  have zero := (cancel accepted).mpr none ⟨"$", true⟩
  rw [sum] at zero
  norm_num at zero

end Transaction

end DoubleEntry

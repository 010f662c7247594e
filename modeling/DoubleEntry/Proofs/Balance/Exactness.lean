import DoubleEntry.Proofs.Balance.Posting
import DoubleEntry.Proofs.Decimal.Rounding
import Mathlib.Data.List.Infix

/-! How exact a balance is. A posting succeeds for more sums than there are decimals for, and rounds
where there is none; so a balance is exact as long as every sum on the way is the value of a decimal,
and else it is off by the roundings. -/

namespace DoubleEntry.Balance

open Decimal (Representable limit)

/-- What can be added to a balance at a time: an amount, or another balance with all its amounts. -/
inductive Addition where
  | posting (commodity : Commodity) (amount : Decimal)
  | balance (other : Balance)

/-- The amounts of an addition, in the order in which they are added. -/
def Addition.entries : Addition → List (Commodity × Decimal)
  | posting commodity amount => [(commodity, amount)]
  | balance other => other.entries

/-- Adds an amount, or the amounts of another balance. -/
def add (balance : Balance) : Addition → Progress Balance Overflow
  | .posting commodity amount => balance.post commodity amount
  | .balance other => balance.merge other

/-- Makes additions in turn, up to the first sum that is too large. -/
def addAll (balance : Balance) (additions : List Addition) : Progress Balance Overflow :=
  Progress.foldl add balance additions

variable {balance : Balance} {commodity : Commodity} {amount : Decimal} {additions : List Addition}

/-- The exact sum that a posting should lead to. -/
def exactPost (balance : Balance) (commodity : Commodity) (amount : Decimal) : Rat :=
  (balance.amountOf commodity).value + amount.value

def posted (balance : Balance) (commodity : Commodity) (amount : Decimal) : Decimal :=
  amountOf (balance.post commodity amount).state commodity

theorem post_of_none (failed : (balance.amountOf commodity).add? amount = none) :
    (balance.post commodity amount).fault =
      some ⟨commodity, balance.amountOf commodity, amount⟩ := by
  simp [post, failed]

theorem add?_of_done (done : (balance.post commodity amount).fault = none) :
    (balance.amountOf commodity).add? amount = some (balance.posted commodity amount) := by
  obtain ⟨sum, added⟩ := fault_post_eq_none_iff.mp done
  rw [posted, post_of_some added, amountOf_insert_self, added]

/-- A posting succeeds exactly if the sum is not too large as an integer; otherwise the error names
the total and the amount. -/
theorem fault_post_cases (balance : Balance) (commodity : Commodity) (amount : Decimal) :
    |balance.exactPost commodity amount| < limit ∧ (balance.post commodity amount).fault = none ∨
    limit ≤ |balance.exactPost commodity amount| ∧ (balance.post commodity amount).fault =
      some ⟨commodity, balance.amountOf commodity, amount⟩ := by
  have given := Decimal.add?_isSome_iff (balance.amountOf commodity) amount
  cases added : (balance.amountOf commodity).add? amount with
  | none =>
    right
    rw [added] at given
    refine ⟨?_, post_of_none added⟩
    by_contra small
    exact absurd (given.mpr (not_le.mp small)) (by simp)
  | some sum =>
    left
    rw [added] at given
    exact ⟨given.mp rfl, fault_post_eq_none_iff.mpr ⟨sum, added⟩⟩

/-- What a posting leaves is off by half a unit of its last digit at most, and by nothing exactly if
some decimal has the value of the sum. -/
theorem posted_of_done (done : (balance.post commodity amount).fault = none) :
    |(balance.posted commodity amount).value - balance.exactPost commodity amount| ≤
        1 / 2 / 10 ^ (balance.posted commodity amount).scale ∧
      ((balance.posted commodity amount).value = balance.exactPost commodity amount ↔
        Representable (balance.exactPost commodity amount)) :=
  ⟨Decimal.add?_error (add?_of_done done), Decimal.add?_exact_iff (add?_of_done done)⟩

theorem fault_post_of_representable
    (representable : Representable (balance.exactPost commodity amount)) :
    (balance.post commodity amount).fault = none := by
  obtain ⟨sum, added, _⟩ := Decimal.add?_exact representable
  exact fault_post_eq_none_iff.mpr ⟨sum, added⟩

theorem add_eq_postAll (balance : Balance) (addition : Addition) :
    balance.add addition = balance.postAll addition.entries := by
  cases addition with
  | posting commodity amount =>
    rw [postAll, Addition.entries, Progress.foldl_singleton]
    rfl
  | balance other => rfl

theorem addAll_eq_postAll (balance : Balance) (additions : List Addition) :
    balance.addAll additions = balance.postAll (additions.flatMap Addition.entries) := by
  have each : add = fun balance addition => balance.postAll addition.entries := by
    funext balance addition
    exact add_eq_postAll balance addition
  rw [addAll, each]
  exact Progress.foldl_flatMap _ _ _ _

/-- The amounts of a commodity among some additions, in order. -/
def addedTo (commodity : Commodity) (additions : List Addition) : List Decimal :=
  amountsIn (additions.flatMap Addition.entries) commodity

/-- Every sum of a commodity on the way through some additions is the value of a decimal. -/
def ExactOnTheWay (balance : Balance) (additions : List Addition) (commodity : Commodity) : Prop :=
  ∀ first, first <+: addedTo commodity additions →
    Representable ((balance.amountOf commodity).value + Decimal.exactSum first)

/-- After additions that all succeed, a balance is off by the roundings on the way. -/
theorem value_addAll (done : (balance.addAll additions).fault = none) (commodity : Commodity) :
    (amountOf (balance.addAll additions).state commodity).value =
      (balance.amountOf commodity).value + Decimal.exactSum (addedTo commodity additions) +
        (Decimal.roundings (balance.amountOf commodity) (addedTo commodity additions)).sum := by
  rw [addAll_eq_postAll] at done ⊢
  exact Decimal.value_of_sumFrom? (sumFrom?_postAll done commodity)

/-- Additions succeed, and are exact, as long as every sum on the way is the value of a decimal. -/
theorem addAll_exact (exact : ∀ commodity, balance.ExactOnTheWay additions commodity) :
    (balance.addAll additions).fault = none ∧ ∀ commodity,
      (amountOf (balance.addAll additions).state commodity).value =
        (balance.amountOf commodity).value + Decimal.exactSum (addedTo commodity additions) := by
  have sums (commodity : Commodity) := Decimal.sumFrom?_exact (exact commodity)
  have done : (balance.addAll additions).fault = none := by
    rw [addAll_eq_postAll]
    exact fault_postAll_eq_none fun commodity => (sums commodity).imp fun _ => And.left
  refine ⟨done, fun commodity => ?_⟩
  obtain ⟨sum, summed, same, _⟩ := sums commodity
  rw [addAll_eq_postAll] at done ⊢
  have total := (sumFrom?_postAll done commodity).symm.trans summed
  rw [Option.some.inj total, same]

def largest : Balance := single ⟨"$", true⟩ (.spelled "79228162514264337593543950335")

/-- A posting can succeed where no decimal has the value of the sum: ten cents more than the largest
amount are the largest amount. -/
theorem exists_posted_ne_exactPost :
    ∃ (balance : Balance) (commodity : Commodity) (amount : Decimal),
      (balance.post commodity amount).fault = none ∧
      ¬ Representable (balance.exactPost commodity amount) ∧
      (balance.posted commodity amount).value ≠ balance.exactPost commodity amount := by
  have done : (largest.post ⟨"$", true⟩ (.spelled "0.1")).fault = none := by decide
  have off : (largest.posted ⟨"$", true⟩ (.spelled "0.1")).value ≠
      largest.exactPost ⟨"$", true⟩ (.spelled "0.1") := by decide +kernel
  have between := mt (posted_of_done done).2.mpr off
  exact ⟨largest, ⟨"$", true⟩, .spelled "0.1", done, between, off⟩

/-- How exact balances are, for every balance, commodity and amount. A posting for whose sum there is
a decimal succeeds and is exact. A posting succeeds exactly if the sum is below the limit, and else
the error names the total and the amount; if it succeeds it is off by half a unit of the last digit
at most, and exact only if there is a decimal for the sum. A run of additions that succeeds is off by
the sum of the roundings on the way, and one for whose every sum there is a decimal succeeds and is
exact. -/
theorem post_exact_iff_representable (balance : Balance) :
    (∀ commodity amount, Representable (balance.exactPost commodity amount) →
      (balance.post commodity amount).fault = none ∧
        (balance.posted commodity amount).value = balance.exactPost commodity amount) ∧
    (∀ commodity amount,
      |balance.exactPost commodity amount| < limit ∧
        (balance.post commodity amount).fault = none ∨
      limit ≤ |balance.exactPost commodity amount| ∧
        (balance.post commodity amount).fault =
          some ⟨commodity, balance.amountOf commodity, amount⟩) ∧
    (∀ commodity amount, (balance.post commodity amount).fault = none →
      |(balance.posted commodity amount).value - balance.exactPost commodity amount| ≤
          1 / 2 / 10 ^ (balance.posted commodity amount).scale ∧
        ((balance.posted commodity amount).value = balance.exactPost commodity amount ↔
          Representable (balance.exactPost commodity amount))) ∧
    (∀ additions, (balance.addAll additions).fault = none → ∀ commodity,
      (amountOf (balance.addAll additions).state commodity).value =
        (balance.amountOf commodity).value + Decimal.exactSum (addedTo commodity additions) +
          (Decimal.roundings (balance.amountOf commodity) (addedTo commodity additions)).sum) ∧
    (∀ additions, (∀ commodity, balance.ExactOnTheWay additions commodity) →
      (balance.addAll additions).fault = none ∧ ∀ commodity,
        (amountOf (balance.addAll additions).state commodity).value =
          (balance.amountOf commodity).value +
            Decimal.exactSum (addedTo commodity additions)) := by
  refine ⟨fun commodity amount representable => ?_, fault_post_cases balance,
    fun _ _ => posted_of_done, fun _ => value_addAll, fun _ => addAll_exact⟩
  have done := fault_post_of_representable representable
  exact ⟨done, (posted_of_done done).2.mpr representable⟩

/-- A dollar less, and then the dollar again. -/
def thereAndBack : List Addition :=
  [.posting ⟨"$", true⟩ (.spelled "-1"), .balance (single ⟨"$", true⟩ (.spelled "1.00"))]

theorem exactOnTheWay_thereAndBack (commodity : Commodity) :
    largest.ExactOnTheWay thereAndBack commodity := by
  intro first isPrefix
  by_cases same : commodity = ⟨"$", true⟩
  · subst same
    have prefixes : first ∈ [[], [.spelled "-1"], [.spelled "-1", .spelled "1.00"]] :=
      (List.mem_inits _ _).mpr isPrefix
    simp only [List.mem_cons, List.not_mem_nil, or_false] at prefixes
    rcases prefixes with rfl | rfl | rfl
    · exact ⟨.spelled "79228162514264337593543950335", by decide +kernel⟩
    · exact ⟨.spelled "79228162514264337593543950334", by decide +kernel⟩
    · exact ⟨.spelled "79228162514264337593543950335", by decide +kernel⟩
  · have nothing : addedTo commodity thereAndBack = [] := by
      have apart : (⟨"$", true⟩ : Commodity) ≠ commodity := Ne.symm same
      exact (amountsIn_cons_of_ne apart _ _).trans (amountsIn_cons_of_ne apart _ _)
    have absent : largest.amountOf commodity = .zero := amountOf_insert_of_ne ∅ (Ne.symm same) _
    rw [nothing] at isPrefix
    rw [List.prefix_nil.mp isPrefix, absent]
    exact ⟨.zero, by simp⟩

theorem post_largest :
    Representable (largest.exactPost ⟨"$", true⟩ (.spelled "-0")) ∧
    (largest.posted ⟨"$", true⟩ (.spelled "-0")).value =
      largest.exactPost ⟨"$", true⟩ (.spelled "-0") ∧
    (largest.post ⟨"$", true⟩ (.spelled "0.1")).fault = none ∧
    |(largest.posted ⟨"$", true⟩ (.spelled "0.1")).value -
      largest.exactPost ⟨"$", true⟩ (.spelled "0.1")| ≤ 1 / 2 ∧
    limit ≤ |largest.exactPost ⟨"$", true⟩ (.spelled "0.5")| ∧
    (largest.addAll thereAndBack).fault = none ∧
    (amountOf (largest.addAll thereAndBack).state ⟨"$", true⟩).value =
      (largest.amountOf ⟨"$", true⟩).value := by
  obtain ⟨exact, cases, near, _, run⟩ := post_exact_iff_representable largest
  have representable : Representable (largest.exactPost ⟨"$", true⟩ (.spelled "-0")) :=
    ⟨.spelled "79228162514264337593543950335", by decide +kernel⟩
  have done : (largest.post ⟨"$", true⟩ (.spelled "0.1")).fault = none := by decide
  have scale : (largest.posted ⟨"$", true⟩ (.spelled "0.1")).scale = 0 := by decide
  have bound := (near ⟨"$", true⟩ (.spelled "0.1") done).1
  rw [scale, pow_zero, div_one] at bound
  have large : limit ≤ |largest.exactPost ⟨"$", true⟩ (.spelled "0.5")| := by
    rcases cases ⟨"$", true⟩ (.spelled "0.5") with ⟨_, impossible⟩ | ⟨beyond, _⟩
    · have failed : (largest.post ⟨"$", true⟩ (.spelled "0.5")).fault ≠ none := by decide
      exact absurd impossible failed
    · exact beyond
  obtain ⟨ran, same⟩ := run thereAndBack exactOnTheWay_thereAndBack
  have nothing : Decimal.exactSum (addedTo ⟨"$", true⟩ thereAndBack) = 0 := by decide +kernel
  have back := same ⟨"$", true⟩
  rw [nothing, add_zero] at back
  exact ⟨representable, (exact _ _ representable).2, done, bound, large, ran, back⟩

end DoubleEntry.Balance

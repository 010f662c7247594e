import DoubleEntry.Proofs.Decimal.Addition
import Mathlib.Algebra.BigOperators.Group.List.Basic
import Mathlib.Algebra.Order.BigOperators.Group.List

/-! Running sums of decimals. Each addition may round; the roundings on the way are what parts the
result from the exact sum. None of them rounds while the amounts together stay within bounds. -/

namespace DoubleEntry.Decimal

/-- Adds amounts to a total in turn; none if a sum is too large. -/
def sumFrom? (total : Decimal) (amounts : List Decimal) : Option Decimal :=
  amounts.foldlM add? total

def exactSum (amounts : List Decimal) : Rat := (amounts.map value).sum

/-- How far each addition of a running sum is off the exact sum of its operands. -/
def roundings (total : Decimal) : List Decimal → List Rat
  | [] => []
  | amount :: amounts =>
    match add? total amount with
    | none => []
    | some sum => (sum.value - (total.value + amount.value)) :: roundings sum amounts

/-- The most fractional digits of some amounts. -/
def largestScale (amounts : List Decimal) : Nat := (amounts.map scale).foldr max 0

/-- The sum of some amounts without their signs, in units of the last of `scale` digits. -/
def grossAt (scale : Nat) (amounts : List Decimal) : Nat :=
  (amounts.map fun amount => (amount.coefficientAt scale).natAbs).sum

/-- The sum of some amounts without their signs, in units of their last digit. -/
def gross (amounts : List Decimal) : Nat := grossAt (largestScale amounts) amounts

/-- The sum of some amounts without a rounding, and with no digits but those of the amounts. -/
structure IsSum (amounts : List Decimal) (sum : Decimal) : Prop where
  value_eq : sum.value = exactSum amounts
  scale_le : sum.scale ≤ largestScale amounts
  natAbs_le : (sum.coefficientAt (largestScale amounts)).natAbs ≤ gross amounts

variable {total amount sum : Decimal} {amounts : List Decimal}

@[simp] theorem sumFrom?_nil (total : Decimal) : sumFrom? total [] = some total := rfl

theorem sumFrom?_cons (total amount : Decimal) (amounts : List Decimal) :
    sumFrom? total (amount :: amounts) = (add? total amount).bind (sumFrom? · amounts) := rfl

@[simp] theorem exactSum_nil : exactSum [] = 0 := rfl

@[simp] theorem exactSum_cons (amount : Decimal) (amounts : List Decimal) :
    exactSum (amount :: amounts) = amount.value + exactSum amounts := by
  simp [exactSum]

/-- A running sum is the exact sum and the roundings on the way. -/
theorem value_of_sumFrom? (summed : sumFrom? total amounts = some sum) :
    sum.value = total.value + exactSum amounts + (roundings total amounts).sum := by
  induction amounts generalizing total with
  | nil =>
    cases summed
    simp [roundings]
  | cons amount amounts ih =>
    rw [sumFrom?_cons] at summed
    obtain ⟨next, added, rest⟩ := Option.bind_eq_some_iff.mp summed
    rw [ih rest, exactSum_cons, roundings, added, List.sum_cons]
    ring

/-- An addition to which some decimal is the exact answer does not round. -/
theorem roundings_cons_exact (amounts : List Decimal)
    (exact : ∃ d : Decimal, d.value = total.value + amount.value) :
    ∃ sum, add? total amount = some sum ∧ sum.value = total.value + amount.value ∧
      roundings total (amount :: amounts) = 0 :: roundings sum amounts := by
  obtain ⟨sum, added, same⟩ := add?_exact exact
  exact ⟨sum, added, same, by simp [roundings, added, same]⟩

/-- A running sum is exact if every sum on the way is the value of a decimal. -/
theorem sumFrom?_exact
    (exact : ∀ first, first <+: amounts → ∃ d : Decimal, d.value = total.value + exactSum first) :
    ∃ sum, sumFrom? total amounts = some sum ∧ sum.value = total.value + exactSum amounts ∧
      ∀ rounding ∈ roundings total amounts, rounding = 0 := by
  induction amounts generalizing total with
  | nil => exact ⟨total, rfl, by simp, by simp [roundings]⟩
  | cons amount amounts ih =>
    have first := exact [amount] (by simp)
    rw [exactSum_cons, exactSum_nil, add_zero] at first
    obtain ⟨next, added, same, unrounded⟩ := roundings_cons_exact amounts first
    obtain ⟨sum, summed, sumEq, later⟩ := @ih next fun first isPrefix => by
      have := exact (amount :: first) (List.cons_prefix_cons.mpr ⟨rfl, isPrefix⟩)
      rwa [exactSum_cons, ← add_assoc, ← same] at this
    refine ⟨sum, ?_, ?_, ?_⟩
    · rw [sumFrom?_cons, added, Option.bind_some, summed]
    · rw [sumEq, same, exactSum_cons, add_assoc]
    · simpa [unrounded] using later

theorem scale_sumFrom?_le {scale : Nat} (summed : sumFrom? total amounts = some sum)
    (start : total.scale ≤ scale) (within : ∀ amount ∈ amounts, amount.scale ≤ scale) :
    sum.scale ≤ scale := by
  induction amounts generalizing total with
  | nil =>
    cases summed
    exact start
  | cons amount amounts ih =>
    rw [sumFrom?_cons] at summed
    obtain ⟨next, added, rest⟩ := Option.bind_eq_some_iff.mp summed
    have small := within amount (List.mem_cons_self ..)
    exact ih rest ((scale_add?_le added).trans (max_le start small))
      fun other member => within other (List.mem_cons_of_mem _ member)

theorem scale_le_largestScale (member : amount ∈ amounts) :
    amount.scale ≤ largestScale amounts := by
  induction amounts with
  | nil => cases member
  | cons head rest ih =>
    rcases List.mem_cons.mp member with rfl | later
    · exact le_max_left ..
    · exact (ih later).trans (le_max_right ..)

theorem largestScale_le {scale : Nat} (within : ∀ amount ∈ amounts, amount.scale ≤ scale) :
    largestScale amounts ≤ scale := by
  induction amounts with
  | nil => exact Nat.zero_le _
  | cons head rest ih =>
    exact max_le (within head (List.mem_cons_self ..))
      (ih fun other member => within other (List.mem_cons_of_mem _ member))

theorem largestScale_le_maximum (amounts : List Decimal) : largestScale amounts ≤ 28 :=
  largestScale_le fun amount _ => amount.scale_le

/-- The exact sum, in units of the last of `scale` digits. -/
theorem exactSum_eq_coefficients {scale : Nat} (within : ∀ amount ∈ amounts, amount.scale ≤ scale) :
    exactSum amounts =
      (((amounts.map (coefficientAt · scale)).sum : Int) : Rat) / 10 ^ scale := by
  induction amounts with
  | nil => simp
  | cons head rest ih =>
    rw [exactSum_cons, value_eq_coefficientAt (within head (List.mem_cons_self ..)),
      ih fun other member => within other (List.mem_cons_of_mem _ member), List.map_cons,
      List.sum_cons]
    push_cast
    ring

theorem natAbs_coefficients_le (scale : Nat) (amounts : List Decimal) :
    (amounts.map (coefficientAt · scale)).sum.natAbs ≤ grossAt scale amounts := by
  induction amounts with
  | nil => simp [grossAt]
  | cons head rest ih =>
    simp only [grossAt, List.map_cons, List.sum_cons] at ih ⊢
    omega

/-- A sum stays within the bounds of its amounts in any units that are fine enough for them. -/
theorem IsSum.natAbs_coefficientAt_le {scale : Nat} (isSum : IsSum amounts sum)
    (finer : largestScale amounts ≤ scale) :
    (sum.coefficientAt scale).natAbs ≤ grossAt scale amounts := by
  have within : ∀ amount ∈ amounts, amount.scale ≤ scale :=
    fun amount member => (scale_le_largestScale member).trans finer
  have same := isSum.value_eq
  rw [exactSum_eq_coefficients within] at same
  rw [coefficientAt_eq_of_value (isSum.scale_le.trans finer) same]
  exact natAbs_coefficients_le scale amounts

theorem grossAt_append (scale : Nat) (first second : List Decimal) :
    grossAt scale (first ++ second) = grossAt scale first + grossAt scale second := by
  simp [grossAt]

theorem grossAt_le_of_sublist {part : List Decimal} (scale : Nat)
    (within : part.Sublist amounts) : grossAt scale part ≤ grossAt scale amounts :=
  (within.map fun amount : Decimal => (amount.coefficientAt scale).natAbs).sum_le_sum
    fun _ _ => Nat.zero_le _

/-- A running sum is exact while the amounts together stay within bounds, whatever their signs. -/
theorem sumFrom?_of_grossAt_lt {scale : Nat} (scaleLe : scale ≤ 28)
    (start : total.scale ≤ scale) (within : ∀ amount ∈ amounts, amount.scale ≤ scale)
    (bounded : (total.coefficientAt scale).natAbs + grossAt scale amounts < 2 ^ 96) :
    ∃ sum, sumFrom? total amounts = some sum ∧ sum.value = total.value + exactSum amounts ∧
      sum.scale ≤ scale := by
  have exact : ∀ first, first <+: amounts →
      ∃ d : Decimal, d.value = total.value + exactSum first := by
    intro first isPrefix
    have firstWithin : ∀ amount ∈ first, amount.scale ≤ scale :=
      fun amount member => within amount (isPrefix.subset member)
    have firstBound := natAbs_coefficients_le scale first
    have monotone := grossAt_le_of_sublist scale isPrefix.sublist
    have fits : (total.coefficientAt scale +
        (first.map (coefficientAt · scale)).sum).natAbs < 2 ^ 96 := by omega
    obtain ⟨d, same⟩ := exists_value_eq fits scaleLe
    refine ⟨d, ?_⟩
    rw [same, value_eq_coefficientAt start, exactSum_eq_coefficients firstWithin]
    push_cast
    ring
  obtain ⟨sum, summed, sumEq, _⟩ := sumFrom?_exact exact
  exact ⟨sum, summed, sumEq, scale_sumFrom?_le summed start within⟩

theorem sumFrom?_of_gross_lt (bounded : gross amounts < 2 ^ 96) :
    ∃ sum, sumFrom? zero amounts = some sum ∧ IsSum amounts sum := by
  have within : ∀ amount ∈ amounts, amount.scale ≤ largestScale amounts :=
    fun _ => scale_le_largestScale
  have start : (zero.coefficientAt (largestScale amounts)).natAbs +
      grossAt (largestScale amounts) amounts < 2 ^ 96 := by
    rw [coefficientAt_zero, Int.natAbs_zero, Nat.zero_add]
    exact bounded
  obtain ⟨sum, summed, same, small⟩ :=
    sumFrom?_of_grossAt_lt (largestScale_le_maximum amounts) (Nat.zero_le _) within start
  rw [value_zero, zero_add] at same
  refine ⟨sum, summed, same, small, ?_⟩
  rw [exactSum_eq_coefficients within] at same
  rw [coefficientAt_eq_of_value small same]
  exact natAbs_coefficients_le _ amounts

theorem grossAt_le_of_scale_le {small large : Nat} (finer : small ≤ large)
    (amounts : List Decimal) : grossAt small amounts ≤ grossAt large amounts := by
  refine List.sum_le_sum fun amount _ => ?_
  rw [coefficientAt_eq_mul, coefficientAt_eq_mul, Int.natAbs_mul, Int.natAbs_mul, Int.natAbs_pow,
    Int.natAbs_pow]
  exact Nat.mul_le_mul_left _ (Nat.pow_le_pow_right (by decide) (Nat.sub_le_sub_right finer _))

theorem gross_le_of_sublist {part : List Decimal} (within : part.Sublist amounts) :
    gross part ≤ gross amounts := by
  have finer : largestScale part ≤ largestScale amounts :=
    largestScale_le fun amount member => scale_le_largestScale (within.subset member)
  exact (grossAt_le_of_scale_le finer part).trans (grossAt_le_of_sublist _ within)

theorem exactSum_perm {others : List Decimal} (permuted : amounts.Perm others) :
    exactSum amounts = exactSum others :=
  (permuted.map value).sum_eq

theorem grossAt_perm {others : List Decimal} (scale : Nat) (permuted : amounts.Perm others) :
    grossAt scale amounts = grossAt scale others :=
  (permuted.map fun amount : Decimal => (amount.coefficientAt scale).natAbs).sum_eq

theorem largestScale_perm {others : List Decimal} (permuted : amounts.Perm others) :
    largestScale amounts = largestScale others :=
  Nat.le_antisymm
    (largestScale_le fun _ member => scale_le_largestScale (permuted.subset member))
    (largestScale_le fun _ member => scale_le_largestScale (permuted.symm.subset member))

theorem gross_perm {others : List Decimal} (permuted : amounts.Perm others) :
    gross amounts = gross others := by
  rw [gross, gross, largestScale_perm permuted, grossAt_perm _ permuted]

end DoubleEntry.Decimal

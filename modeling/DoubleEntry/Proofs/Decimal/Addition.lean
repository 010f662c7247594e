import DoubleEntry.Decimal.Sum
import Mathlib.Algebra.Field.Rat
import Mathlib.Data.Rat.Cast.Order
import Mathlib.Tactic.FieldSimp
import Mathlib.Tactic.Linarith
import Mathlib.Tactic.Ring

/-! Addition of decimals by value. A sum is exact whenever some decimal has its value; otherwise
digits are dropped and the result is off by a rounding. -/

namespace DoubleEntry.Decimal

variable {a b c : Decimal}

theorem value_eq_div (d : Decimal) : d.value = (d.coefficient : Rat) / 10 ^ d.scale := by
  rw [value, Nat.pow_eq, Nat.cast_pow, Nat.cast_ofNat]

theorem coefficientAt_eq_mul (d : Decimal) (scale : Nat) :
    d.coefficientAt scale = d.coefficient * 10 ^ (scale - d.scale) := by
  rw [coefficientAt, Nat.pow_eq, Nat.cast_pow, Nat.cast_ofNat]

@[simp] theorem value_zero : zero.value = 0 := by simp [zero, value, coefficient]

@[simp] theorem coefficientAt_zero (scale : Nat) : zero.coefficientAt scale = 0 := by
  simp [zero, coefficientAt, coefficient]

@[simp] theorem scale_neg (d : Decimal) : (-d).scale = d.scale := rfl

@[simp] theorem coefficientAt_neg (d : Decimal) (scale : Nat) :
    (-d).coefficientAt scale = -d.coefficientAt scale := by
  rw [coefficientAt, coefficientAt, coefficient_neg, scale_neg, neg_mul]

@[simp] theorem value_neg (d : Decimal) : (-d).value = -d.value := by
  rw [value_eq_div, value_eq_div, coefficient_neg, scale_neg]
  push_cast
  ring

theorem value_eq_zero_iff (d : Decimal) : d.value = 0 ↔ d.isZero = true := by
  have positive : (10 ^ d.scale : Rat) ≠ 0 := by positivity
  rw [← coefficient_eq_zero_iff, value_eq_div, div_eq_zero_iff, or_iff_left positive,
    Int.cast_eq_zero]

theorem value_eq_coefficientAt {d : Decimal} {scale : Nat} (within : d.scale ≤ scale) :
    d.value = (d.coefficientAt scale : Rat) / 10 ^ scale := by
  obtain ⟨extra, rfl⟩ := Nat.exists_eq_add_of_le within
  rw [value_eq_div, coefficientAt_eq_mul, Nat.add_sub_cancel_left]
  push_cast
  rw [pow_add]
  field_simp

theorem coefficientAt_eq_of_value {d : Decimal} {sum : Int} {scale : Nat}
    (within : d.scale ≤ scale) (same : d.value = (sum : Rat) / 10 ^ scale) :
    d.coefficientAt scale = sum := by
  rw [value_eq_coefficientAt within] at same
  field_simp at same
  exact_mod_cast same

theorem coefficient_eq_of_sign {sum : Int} (sign : c.negative = decide (sum < 0))
    (magnitude : c.magnitude = sum.natAbs) : c.coefficient = sum := by
  rw [coefficient, sign, magnitude]
  by_cases negative : sum < 0
  · simp only [negative, decide_true, ↓reduceIte]
    omega
  · simp only [negative, decide_false, Bool.false_eq_true, ↓reduceIte]
    omega

theorem exists_value_eq {sum : Int} {scale : Nat} (fits : sum.natAbs < 2 ^ 96)
    (scaleLe : scale ≤ 28) : ∃ d : Decimal, d.value = (sum : Rat) / 10 ^ scale := by
  let d : Decimal := ⟨decide (sum < 0), sum.natAbs, scale, fits, scaleLe⟩
  have coefficientEq : d.coefficient = sum := coefficient_eq_of_sign rfl rfl
  exact ⟨d, by rw [value_eq_div, coefficientEq]⟩

theorem roundHalfEven_mul (magnitude dropped : Nat) :
    roundHalfEven (magnitude * 10 ^ dropped) dropped = magnitude := by
  have positive : 0 < 10 ^ dropped := Nat.pow_pos (by decide)
  simp [roundHalfEven, Nat.mul_div_cancel _ positive]

theorem ofParts?_eq_some {negative : Bool} {magnitude scale : Nat}
    (made : ofParts? negative magnitude scale = some c) :
    c.negative = negative ∧ c.magnitude = magnitude ∧ c.scale = scale := by
  unfold ofParts? at made
  split at made
  · cases made
    exact ⟨rfl, rfl, rfl⟩
  · cases made

/-- The digits that are dropped are the fewest that leave a coefficient within bounds. -/
theorem fit?_eq_some {negative : Bool} {magnitude scale : Nat}
    (made : fit? negative magnitude scale = some c) :
    ∃ dropped ≤ scale, ofParts? negative (roundHalfEven magnitude dropped) (scale - dropped) =
        some c ∧
      ∀ fewer < dropped,
        ofParts? negative (roundHalfEven magnitude fewer) (scale - fewer) = none := by
  obtain ⟨before, dropped, after, split, chosen, rejected⟩ := List.findSome?_eq_some_iff.mp made
  have ordered := List.pairwise_lt_range (n := scale + 1)
  have member : dropped ∈ List.range (scale + 1) := by rw [split]; simp
  refine ⟨dropped, Nat.lt_succ_iff.mp (List.mem_range.mp member), chosen, fun fewer less => ?_⟩
  have fewerMember : fewer ∈ before ++ dropped :: after := by
    rw [← split, List.mem_range]
    have := List.mem_range.mp member
    omega
  rw [split] at ordered
  rcases List.mem_append.mp fewerMember with found | found
  · exact rejected fewer found
  · rcases List.mem_cons.mp found with same | later
    · omega
    · have := (List.pairwise_cons.mp (List.pairwise_append.mp ordered).2.1).1 fewer later
      omega

theorem scale_fit?_le {negative : Bool} {magnitude scale : Nat}
    (made : fit? negative magnitude scale = some c) : c.scale ≤ scale := by
  obtain ⟨dropped, _, chosen, _⟩ := fit?_eq_some made
  have := (ofParts?_eq_some chosen).2.2
  omega

/-- A coefficient that ends in zeros is not rounded as long as it fits without them. -/
theorem fit?_mul_pow {part : Int} {zeros scale : Nat} (fits : part.natAbs < 2 ^ 96)
    (zerosLe : zeros ≤ scale) (scaleLe : scale ≤ 28) :
    ∃ c, fit? (decide (part * 10 ^ zeros < 0)) (part * 10 ^ zeros).natAbs scale = some c ∧
      c.value = ((part * 10 ^ zeros : Int) : Rat) / 10 ^ scale := by
  have natAbs_mul (digits : Nat) :
      (part * 10 ^ digits).natAbs = part.natAbs * 10 ^ digits := by
    rw [Int.natAbs_mul, Int.natAbs_pow]
    rfl
  have accepted : ofParts? (decide (part * 10 ^ zeros < 0))
      (roundHalfEven (part * 10 ^ zeros).natAbs zeros) (scale - zeros) ≠ none := by
    rw [natAbs_mul, roundHalfEven_mul, ofParts?, dif_pos ⟨fits, by omega⟩]
    exact Option.some_ne_none _
  cases found : fit? (decide (part * 10 ^ zeros < 0)) (part * 10 ^ zeros).natAbs scale with
  | none =>
    have rejected := List.findSome?_eq_none_iff.mp found zeros (by simp; omega)
    exact absurd rejected accepted
  | some c =>
    obtain ⟨dropped, droppedLe, chosen, least⟩ := fit?_eq_some found
    have enough : dropped ≤ zeros := by
      by_contra more
      exact accepted (least zeros (by omega))
    obtain ⟨kept, rfl⟩ := Nat.exists_eq_add_of_le enough
    obtain ⟨sign, magnitude, scaleEq⟩ := ofParts?_eq_some chosen
    have split : part * 10 ^ (dropped + kept) = part * 10 ^ kept * 10 ^ dropped := by ring
    have power : (0 : Int) < 10 ^ dropped := by positivity
    have coefficientEq : c.coefficient = part * 10 ^ kept := by
      refine coefficient_eq_of_sign ?_ ?_
      · rw [sign, split]
        refine decide_eq_decide.mpr ?_
        rw [mul_neg_iff]
        omega
      · rw [magnitude, natAbs_mul, natAbs_mul, pow_add, mul_comm (10 ^ dropped), ← mul_assoc,
          roundHalfEven_mul]
    have within : c.scale ≤ scale := scaleEq ▸ Nat.sub_le ..
    refine ⟨c, rfl, ?_⟩
    rw [value_eq_coefficientAt within, coefficientAt_eq_mul, coefficientEq, scaleEq,
      Nat.sub_sub_self droppedLe, split]

/-- A value that some decimal has at the scale of a coefficient leaves zeros to drop. -/
theorem exists_part_of_value_eq {d : Decimal} {sum : Int} {scale : Nat}
    (same : d.value = (sum : Rat) / 10 ^ scale) :
    ∃ part zeros, zeros ≤ scale ∧ part.natAbs < 2 ^ 96 ∧ sum = part * 10 ^ zeros := by
  have bound : d.coefficient.natAbs < 2 ^ 96 := natAbs_coefficient d ▸ d.magnitude_lt
  rcases Nat.le_total scale d.scale with finer | coarser
  · obtain ⟨extra, extraEq⟩ := Nat.exists_eq_add_of_le finer
    have scaled : d.coefficient = 10 ^ extra * sum := by
      rw [value_eq_div, extraEq, pow_add] at same
      field_simp at same
      exact_mod_cast same
    refine ⟨sum, 0, Nat.zero_le _, lt_of_le_of_lt ?_ bound, by simp⟩
    rw [scaled, Int.natAbs_mul]
    exact Nat.le_mul_of_pos_left _ (Int.natAbs_pos.mpr (by positivity))
  · refine ⟨d.coefficient, scale - d.scale, Nat.sub_le .., bound, ?_⟩
    rw [value_eq_coefficientAt coarser] at same
    field_simp at same
    exact_mod_cast same.symm

/-- The sum of two decimals that are not zero, at the larger of their scales. -/
theorem add?_of_nonzero (left : a.isZero = false) (right : b.isZero = false) :
    add? a b = fit?
      (decide (a.coefficientAt (max a.scale b.scale) + b.coefficientAt (max a.scale b.scale) < 0))
      (a.coefficientAt (max a.scale b.scale) + b.coefficientAt (max a.scale b.scale)).natAbs
      (max a.scale b.scale) := by
  simp [add?, left, right]

theorem value_add_value (a b : Decimal) {scale : Nat} (left : a.scale ≤ scale)
    (right : b.scale ≤ scale) :
    a.value + b.value =
      ((a.coefficientAt scale + b.coefficientAt scale : Int) : Rat) / 10 ^ scale := by
  rw [value_eq_coefficientAt left, value_eq_coefficientAt right]
  push_cast
  ring

/-- A sum is exact if there is a decimal of its value at all. -/
theorem add?_exact (exact : ∃ d : Decimal, d.value = a.value + b.value) :
    ∃ sum, add? a b = some sum ∧ sum.value = a.value + b.value := by
  by_cases left : a.isZero = true
  · exact ⟨b, add?_zero_left left, by rw [(value_eq_zero_iff a).mpr left, zero_add]⟩
  rw [Bool.not_eq_true] at left
  by_cases right : b.isZero = true
  · exact ⟨a, add?_zero_right left right, by rw [(value_eq_zero_iff b).mpr right, add_zero]⟩
  rw [Bool.not_eq_true] at right
  obtain ⟨d, same⟩ := exact
  rw [value_add_value a b (le_max_left ..) (le_max_right ..)] at same ⊢
  obtain ⟨part, zeros, zerosLe, fits, sumEq⟩ := exists_part_of_value_eq same
  rw [add?_of_nonzero left right, sumEq]
  exact fit?_mul_pow fits zerosLe (max_le a.scale_le b.scale_le)

theorem scale_add?_le {sum : Decimal} (added : add? a b = some sum) :
    sum.scale ≤ max a.scale b.scale := by
  unfold add? at added
  split at added
  · cases added
    exact le_max_right ..
  · split at added
    · cases added
      exact le_max_left ..
    · exact scale_fit?_le added

end DoubleEntry.Decimal

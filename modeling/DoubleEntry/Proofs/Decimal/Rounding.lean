import DoubleEntry.Proofs.Decimal.Addition
import Mathlib.Algebra.Order.Field.Basic
import Mathlib.Algebra.Order.Field.Rat

/-! How far a sum of decimals can be off. A sum is given unless its integer part is too large; what
is given is off by half a unit of its last digit at most, and by nothing exactly if some decimal has
the value of the sum. -/

namespace DoubleEntry.Decimal

variable {a b c sum : Decimal}

/-- A number that is the value of a decimal. -/
def Representable (number : Rat) : Prop := ∃ d : Decimal, d.value = number

/-- The magnitudes from here on are too large even when they are rounded to an integer. -/
def limit : Rat := 2 ^ 96 - 1 / 2

/-- What is rounded to the nearest is off by half a unit at most. -/
theorem roundHalfEven_error (magnitude dropped : Nat) :
    2 * ((roundHalfEven magnitude dropped * 10 ^ dropped : Int) - magnitude).natAbs ≤
      10 ^ dropped := by
  have positive : 0 < 10 ^ dropped := Nat.pow_pos (by decide)
  have parts := Nat.div_add_mod magnitude (10 ^ dropped)
  have small := Nat.mod_lt magnitude positive
  have unitEq : (10 : Int) ^ dropped = ((10 ^ dropped : Nat) : Int) := by push_cast; rfl
  rw [unitEq]
  simp only [roundHalfEven, Nat.pow_eq]
  generalize 10 ^ dropped = unit at *
  generalize magnitude / unit = quotient at *
  generalize magnitude % unit = rest at *
  have whole : ((unit * quotient : Nat) : Int) = quotient * unit := by push_cast; ring
  split
  · omega
  · split
    · push_cast
      rw [add_mul]
      omega
    · rcases Nat.mod_two_eq_zero_or_one quotient with even | odd
      · rw [even]
        push_cast
        rw [add_zero]
        omega
      · rw [odd]
        push_cast
        rw [add_mul]
        omega

/-- Rounding stays below an even bound exactly up to half a unit below it. -/
theorem roundHalfEven_lt_iff (magnitude dropped half : Nat) :
    roundHalfEven magnitude dropped < 2 * half ↔
      2 * magnitude + 10 ^ dropped < 2 * (10 ^ dropped * (2 * half)) := by
  have positive : 0 < 10 ^ dropped := Nat.pow_pos (by decide)
  have parts := Nat.div_add_mod magnitude (10 ^ dropped)
  have small := Nat.mod_lt magnitude positive
  simp only [roundHalfEven, Nat.pow_eq]
  generalize 10 ^ dropped = unit at *
  generalize magnitude / unit = quotient at *
  generalize magnitude % unit = rest at *
  have below (steps : Nat) (less : quotient + steps ≤ 2 * half) :
      unit * quotient + unit * steps ≤ unit * (2 * half) := by
    rw [← Nat.mul_add]
    exact Nat.mul_le_mul_left unit less
  have above (steps : Nat) (more : 2 * half ≤ quotient + steps) :
      unit * (2 * half) ≤ unit * quotient + unit * steps := by
    rw [← Nat.mul_add]
    exact Nat.mul_le_mul_left unit more
  split
  · rcases Nat.lt_or_ge quotient (2 * half) with less | more
    · have := below 1 less
      omega
    · have := above 0 more
      omega
  · split
    · rcases Nat.lt_or_ge (quotient + 1) (2 * half) with less | more
      · have := below 2 less
        omega
      · have := above 1 more
        omega
    · -- the even neighbour of the last quotient below the bound is the bound itself
      have tie : quotient + quotient % 2 < 2 * half ↔ quotient + 1 < 2 * half := by omega
      rw [tie]
      rcases Nat.lt_or_ge (quotient + 1) (2 * half) with less | more
      · have := below 2 less
        omega
      · have := above 1 more
        omega

theorem ofParts?_isSome_iff {negative : Bool} {magnitude scale : Nat} (scaleLe : scale ≤ 28) :
    (ofParts? negative magnitude scale).isSome ↔ magnitude < 2 ^ 96 := by
  unfold ofParts?
  split
  case isTrue bounds => simpa using bounds.1
  case isFalse outside =>
    have large : ¬ magnitude < 2 ^ 96 := fun fits => outside ⟨fits, scaleLe⟩
    exact iff_of_false (by simp) large

/-- A coefficient can be made to fit exactly if it fits without its fractional digits. -/
theorem fit?_isSome_iff {negative : Bool} {magnitude scale : Nat} (scaleLe : scale ≤ 28) :
    (fit? negative magnitude scale).isSome ↔
      2 * magnitude + 10 ^ scale < 2 * (10 ^ scale * 2 ^ 96) := by
  have accepted (dropped : Nat) :
      (ofParts? negative (roundHalfEven magnitude dropped) (scale - dropped)).isSome ↔
        2 * magnitude + 10 ^ dropped < 2 * (10 ^ dropped * 2 ^ 96) := by
    rw [ofParts?_isSome_iff ((Nat.sub_le ..).trans scaleLe)]
    exact roundHalfEven_lt_iff magnitude dropped (2 ^ 95)
  rw [fit?, List.findSome?_isSome_iff]
  -- the fewer digits are kept the more fits, so the attempt without fractional digits decides
  constructor
  · rintro ⟨dropped, member, fits⟩
    have droppedLe : dropped ≤ scale := Nat.lt_succ_iff.mp (List.mem_range.mp member)
    have unitLe : 10 ^ dropped ≤ 10 ^ scale := Nat.pow_le_pow_right (by decide) droppedLe
    have := (accepted dropped).mp fits
    omega
  · intro fits
    exact ⟨scale, List.mem_range.mpr (Nat.lt_succ_self scale), (accepted scale).mpr fits⟩

theorem abs_div_lt_limit_iff (coefficient : Int) (scale : Nat) :
    |(coefficient : Rat) / 10 ^ scale| < limit ↔
      2 * coefficient.natAbs + 10 ^ scale < 2 * (10 ^ scale * 2 ^ 96) := by
  have positive : (0 : Rat) < 10 ^ scale := by positivity
  have magnitude : |(coefficient : Rat)| = (coefficient.natAbs : Rat) := by
    rw [← Int.cast_abs, Int.abs_eq_natAbs, Int.cast_natCast]
  rw [abs_div, abs_of_pos positive, div_lt_iff₀ positive, magnitude, limit]
  constructor
  · intro less
    have doubled : 2 * (coefficient.natAbs : Rat) + 10 ^ scale < 2 * (10 ^ scale * 2 ^ 96) := by
      linarith
    exact_mod_cast doubled
  · intro less
    have doubled : 2 * (coefficient.natAbs : Rat) + 10 ^ scale < 2 * (10 ^ scale * 2 ^ 96) := by
      exact_mod_cast less
    linarith

theorem abs_value_lt_limit (d : Decimal) : |d.value| < limit := by
  have positive : 0 < 10 ^ d.scale := Nat.pow_pos (by decide)
  have fits : d.magnitude + 1 ≤ 2 ^ 96 := d.magnitude_lt
  rw [value_eq_div, abs_div_lt_limit_iff, natAbs_coefficient]
  have scaled := Nat.mul_le_mul positive fits
  nlinarith

/-- Two decimals can be added exactly if their sum is not too large as an integer. -/
theorem add?_isSome_iff (a b : Decimal) : (add? a b).isSome ↔ |a.value + b.value| < limit := by
  by_cases left : a.isZero = true
  · have zero := (value_eq_zero_iff a).mpr left
    rw [add?_zero_left left, zero, zero_add]
    simpa using abs_value_lt_limit b
  rw [Bool.not_eq_true] at left
  by_cases right : b.isZero = true
  · have zero := (value_eq_zero_iff b).mpr right
    rw [add?_zero_right left right, zero, add_zero]
    simpa using abs_value_lt_limit a
  rw [Bool.not_eq_true] at right
  rw [add?_of_nonzero left right, fit?_isSome_iff (max_le a.scale_le b.scale_le),
    value_add_value a b (le_max_left ..) (le_max_right ..), abs_div_lt_limit_iff]

/-- What is fitted in is off by half a unit of its last digit at most. -/
theorem fit?_error {coefficient : Int} {scale : Nat}
    (made : fit? (decide (coefficient < 0)) coefficient.natAbs scale = some c) :
    |c.value - (coefficient : Rat) / 10 ^ scale| ≤ 1 / 2 / 10 ^ c.scale := by
  obtain ⟨dropped, droppedLe, chosen, _⟩ := fit?_eq_some made
  obtain ⟨sign, magnitude, scaleEq⟩ := ofParts?_eq_some chosen
  have within : c.scale ≤ scale := scaleEq ▸ Nat.sub_le ..
  have error := roundHalfEven_error coefficient.natAbs dropped
  have aligned : 2 * (c.coefficientAt scale - coefficient).natAbs ≤ 10 ^ dropped := by
    rw [coefficientAt_eq_mul, scaleEq, Nat.sub_sub_self droppedLe, Decimal.coefficient, sign,
      magnitude]
    by_cases negative : coefficient < 0
    · simp only [negative, decide_true, ↓reduceIte, neg_mul]
      omega
    · simp only [negative, decide_false, Bool.false_eq_true, ↓reduceIte]
      omega
  have split : (10 : Rat) ^ scale = 10 ^ dropped * 10 ^ c.scale := by
    rw [scaleEq, ← pow_add, Nat.add_sub_cancel' droppedLe]
  have bound : 2 * |((c.coefficientAt scale - coefficient : Int) : Rat)| ≤ 10 ^ dropped := by
    rw [← Int.cast_abs, Int.abs_eq_natAbs, Int.cast_natCast]
    exact_mod_cast aligned
  rw [value_eq_coefficientAt within, ← sub_div, ← Int.cast_sub, abs_div,
    abs_of_pos (by positivity : (0 : Rat) < 10 ^ scale), split, div_div, div_le_div_iff₀
    (by positivity) (by positivity)]
  nlinarith [show (0 : Rat) < 10 ^ c.scale by positivity]

/-- A sum is off by half a unit of its last digit at most. -/
theorem add?_error (added : add? a b = some sum) :
    |sum.value - (a.value + b.value)| ≤ 1 / 2 / 10 ^ sum.scale := by
  have positive : (0 : Rat) ≤ 1 / 2 / 10 ^ sum.scale :=
    div_nonneg (by norm_num) (pow_nonneg (by norm_num) _)
  by_cases left : a.isZero = true
  · rw [add?_zero_left left] at added
    cases added
    simpa [(value_eq_zero_iff a).mpr left] using positive
  rw [Bool.not_eq_true] at left
  by_cases right : b.isZero = true
  · rw [add?_zero_right left right] at added
    cases added
    simpa [(value_eq_zero_iff b).mpr right] using positive
  rw [Bool.not_eq_true] at right
  rw [add?_of_nonzero left right] at added
  rw [value_add_value a b (le_max_left ..) (le_max_right ..)]
  exact fit?_error added

theorem add?_exact_iff (added : add? a b = some sum) :
    sum.value = a.value + b.value ↔ Representable (a.value + b.value) := by
  constructor
  · intro exact
    exact ⟨sum, exact⟩
  · intro representable
    obtain ⟨found, again, exact⟩ := add?_exact representable
    rw [added] at again
    cases again
    exact exact

end DoubleEntry.Decimal

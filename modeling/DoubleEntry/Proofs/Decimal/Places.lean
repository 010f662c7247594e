import DoubleEntry.Decimal.Text
import DoubleEntry.Proofs.Decimal.Addition
import Mathlib.Algebra.Order.Round
import Mathlib.Data.Rat.Floor

/-! Decimals at a fixed number of places. What is shown is the value rounded to the nearest, halves
away from zero; a value that has no more places is shown as it is. -/

namespace DoubleEntry

/-- A number to `places` decimal places: to the nearest, and a half away from zero. -/
def roundedTo (number : Rat) (places : Nat) : Rat :=
  let units := round (|number| * 10 ^ places)
  if number < 0 then -(units / 10 ^ places) else units / 10 ^ places

theorem roundedTo_of_units {number : Rat} {places : Nat} {units : Int}
    (same : number = (units : Rat) / 10 ^ places) : roundedTo number places = number := by
  have positive : (0 : Rat) < 10 ^ places := by positivity
  have scaled : |number| * 10 ^ places = ((|units| : Int) : Rat) := by
    rw [same, abs_div, abs_of_pos positive, div_mul_cancel₀ _ positive.ne', Int.cast_abs]
  have magnitude : ((|units| : Int) : Rat) / 10 ^ places = |number| := by
    rw [← scaled, mul_div_cancel_right₀ _ positive.ne']
  rw [roundedTo, scaled, round_intCast, magnitude]
  split
  · rename_i negative
    rw [abs_of_neg negative, neg_neg]
  · rename_i positive
    exact abs_of_nonneg (not_lt.mp positive)

namespace Decimal

variable {d : Decimal} {places : Nat}

/-- A number with at most `places` decimal places. -/
def HasPlaces (d : Decimal) (places : Nat) : Prop :=
  ∃ units : Int, d.value = (units : Rat) / 10 ^ places

theorem HasPlaces.roundedTo_value (exact : d.HasPlaces places) :
    roundedTo d.value places = d.value := by
  obtain ⟨units, same⟩ := exact
  exact roundedTo_of_units same

theorem roundHalfAway_le (magnitude dropped : Nat) :
    roundHalfAway magnitude dropped ≤ magnitude := by
  have positive : 0 < 10 ^ dropped := Nat.pow_pos (by decide)
  have parts := Nat.div_add_mod magnitude (10 ^ dropped)
  simp only [roundHalfAway, Nat.pow_eq]
  generalize 10 ^ dropped = unit at *
  generalize magnitude / unit = quotient at *
  generalize magnitude % unit = rest at *
  have scaled : quotient ≤ unit * quotient := Nat.le_mul_of_pos_left quotient positive
  split
  · omega
  · omega

/-- Digits are dropped as the quotient is rounded. -/
theorem round_div_pow (magnitude dropped : Nat) :
    round ((magnitude : Rat) / 10 ^ dropped) = roundHalfAway magnitude dropped := by
  have positive : 0 < 10 ^ dropped := Nat.pow_pos (by decide)
  have parts := Nat.div_add_mod magnitude (10 ^ dropped)
  have small := Nat.mod_lt magnitude positive
  have unitEq : (10 : Rat) ^ dropped = ((10 ^ dropped : Nat) : Rat) := by push_cast; rfl
  rw [round_eq, Int.floor_eq_iff, unitEq]
  simp only [roundHalfAway, Nat.pow_eq]
  generalize 10 ^ dropped = unit at *
  generalize magnitude / unit = quotient at *
  generalize magnitude % unit = rest at *
  have unitPositive : (0 : Rat) < unit := by exact_mod_cast positive
  have whole : (magnitude : Rat) / unit = quotient + rest / unit := by
    rw [← parts]
    push_cast
    field_simp
  have nonnegative : (0 : Rat) ≤ rest / unit := by positivity
  have less : (rest : Rat) / unit < 1 := (div_lt_one unitPositive).mpr (by exact_mod_cast small)
  rw [whole]
  split
  case isTrue down =>
    have below : (rest : Rat) / unit < 1 / 2 := by
      rw [div_lt_div_iff₀ unitPositive two_pos]
      exact_mod_cast (by omega : rest * 2 < 1 * unit)
    push_cast
    constructor <;> linarith
  case isFalse up =>
    have above : 1 / 2 ≤ (rest : Rat) / unit := by
      rw [div_le_div_iff₀ two_pos unitPositive]
      exact_mod_cast (by omega : 1 * unit ≤ rest * 2)
    push_cast
    constructor <;> linarith

theorem abs_value (d : Decimal) : |d.value| = (d.magnitude : Rat) / 10 ^ d.scale := by
  have magnitude : |(d.coefficient : Rat)| = d.magnitude := by
    rw [← Int.cast_abs, Int.abs_eq_natAbs, natAbs_coefficient, Int.cast_natCast]
  have positive : (0 : Rat) < 10 ^ d.scale := by positivity
  rw [value_eq_div, abs_div, magnitude, abs_of_pos positive]

theorem round_abs_value (d : Decimal) (places : Nat) :
    round (|d.value| * 10 ^ places) = d.magnitudeAt places := by
  rw [abs_value, magnitudeAt]
  split
  case isTrue coarse =>
    obtain ⟨extra, sum⟩ := Nat.exists_eq_add_of_le coarse
    have whole : (d.magnitude : Rat) / 10 ^ d.scale * 10 ^ places =
        ((d.magnitude * 10 ^ extra : Nat) : Rat) := by
      rw [sum, pow_add]
      push_cast
      field_simp
    rw [whole, round_natCast, sum, Nat.add_sub_cancel_left]
    rfl
  case isFalse fine =>
    obtain ⟨extra, sum⟩ := Nat.exists_eq_add_of_le (Nat.le_of_not_le fine)
    have quotient : (d.magnitude : Rat) / 10 ^ d.scale * 10 ^ places =
        (d.magnitude : Rat) / 10 ^ extra := by
      rw [sum, pow_add]
      field_simp
    rw [quotient, round_div_pow, sum, Nat.add_sub_cancel_left]

theorem value_neg_iff (d : Decimal) : d.value < 0 ↔ d.negative = true ∧ d.isZero = false := by
  have positive : (0 : Rat) < 10 ^ d.scale := by positivity
  rw [value_eq_div, div_lt_iff₀ positive, zero_mul, Int.cast_lt_zero, coefficient, isZero,
    beq_eq_false_iff_ne]
  cases d.negative with
  | true => simp [Nat.pos_iff_ne_zero]
  | false => simp

theorem magnitudeAt_of_isZero (zero : d.isZero = true) (places : Nat) :
    d.magnitudeAt places = 0 := by
  have nothing := (value_eq_zero_iff d).mpr zero
  have rounded := round_abs_value d places
  rw [nothing, abs_zero, zero_mul, round_zero] at rounded
  exact_mod_cast rounded.symm

def showsSign (d : Decimal) (places : Nat) : Bool :=
  d.negative && (d.magnitudeAt places != 0 || d.isZero)

theorem fixedText_eq (d : Decimal) (places : Nat) :
    d.fixedText places =
      signText (d.showsSign places) ++ digitsWithPoint (d.magnitudeAt places) places := rfl

theorem roundedTo_value (d : Decimal) (places : Nat) :
    roundedTo d.value places =
      if d.showsSign places then -((d.magnitudeAt places : Rat) / 10 ^ places)
      else (d.magnitudeAt places : Rat) / 10 ^ places := by
  rw [roundedTo, round_abs_value]
  by_cases nothing : d.magnitudeAt places = 0
  · simp [nothing]
  · have nonzero : d.isZero = false := by
      by_contra zero
      exact nothing (magnitudeAt_of_isZero (by simpa using zero) places)
    have sign : d.showsSign places = true ↔ d.value < 0 := by
      rw [value_neg_iff, showsSign]
      simp [nothing, nonzero]
    simp only [sign]
    rfl

end Decimal

end DoubleEntry

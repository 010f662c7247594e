import DoubleEntry.Decimal.Basic

/-! Adding decimals. A sum keeps the larger scale while its coefficient fits; otherwise it gives up
as few fractional digits as needed, rounding to nearest with ties to even. -/

namespace DoubleEntry.Decimal

/-- `magnitude` without its last `dropped` digits, to nearest, a tie to the even neighbour. -/
def roundHalfEven (magnitude dropped : Nat) : Nat :=
  let quotient := magnitude / Nat.pow 10 dropped
  let rest := 2 * (magnitude % Nat.pow 10 dropped)
  if rest < Nat.pow 10 dropped then quotient
  else if Nat.pow 10 dropped < rest then quotient + 1
  else quotient + quotient % 2

@[simp] theorem roundHalfEven_zero (magnitude : Nat) : roundHalfEven magnitude 0 = magnitude := by
  simp [roundHalfEven, Nat.mod_one]

/-- The decimal nearest to `± magnitude / 10 ^ scale` that keeps the most fractional digits; none
if even the integer part is too large. -/
def fit? (negative : Bool) (magnitude scale : Nat) : Option Decimal :=
  (List.range (scale + 1)).findSome? fun dropped =>
    ofParts? negative (roundHalfEven magnitude dropped) (scale - dropped)

/-- The coefficient of a decimal written with `scale` fractional digits, for `d.scale ≤ scale`. -/
def coefficientAt (d : Decimal) (scale : Nat) : Int := d.coefficient * Nat.pow 10 (scale - d.scale)

/-- The sum of two decimals, if it is not too large. A zero leaves the other one as it is, and a sum
that is zero has no sign. -/
def add? (a b : Decimal) : Option Decimal :=
  if a.isZero then some b
  else if b.isZero then some a
  else
    let scale := max a.scale b.scale
    let sum := a.coefficientAt scale + b.coefficientAt scale
    fit? (sum < 0) sum.natAbs scale

@[simp] theorem add?_zero_left {a b : Decimal} (isZero : a.isZero = true) : add? a b = some b := by
  simp [add?, isZero]

theorem add?_zero_right {a b : Decimal} (nonzero : a.isZero = false) (isZero : b.isZero = true) :
    add? a b = some a := by
  simp [add?, nonzero, isZero]

/-- A coefficient that fits is not rounded. -/
theorem fit?_of_lt {negative : Bool} {magnitude scale : Nat} (fits : magnitude < Nat.pow 2 96)
    (scaleLe : scale ≤ 28) :
    fit? negative magnitude scale = some ⟨negative, magnitude, scale, fits, scaleLe⟩ := by
  have whole : ofParts? negative (roundHalfEven magnitude 0) (scale - 0) =
      some ⟨negative, magnitude, scale, fits, scaleLe⟩ := by
    rw [roundHalfEven_zero, Nat.sub_zero, ofParts?, dif_pos ⟨fits, scaleLe⟩]
  rw [fit?, List.range_succ_eq_map, List.findSome?_cons, whole]

end DoubleEntry.Decimal

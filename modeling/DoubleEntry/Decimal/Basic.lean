/-! Exact decimals: a sign, a coefficient below 2^96 and at most 28 fractional digits. One value has
several representations (trailing zeros, a signed zero); texts show the representation, comparisons
see the value. -/

namespace DoubleEntry

/-- The decimal `± magnitude / 10 ^ scale`. -/
structure Decimal where
  negative : Bool
  magnitude : Nat
  scale : Nat
  magnitude_lt : magnitude < Nat.pow 2 96
  scale_le : scale ≤ 28
  deriving DecidableEq

namespace Decimal

def zero : Decimal := ⟨false, 0, 0, by decide, by decide⟩

instance : Inhabited Decimal := ⟨zero⟩

/-- The decimal with the given parts, if they are within bounds. -/
def ofParts? (negative : Bool) (magnitude scale : Nat) : Option Decimal :=
  if bounds : magnitude < Nat.pow 2 96 ∧ scale ≤ 28 then
    some ⟨negative, magnitude, scale, bounds.1, bounds.2⟩
  else none

def coefficient (d : Decimal) : Int := if d.negative then -(d.magnitude : Int) else d.magnitude

def value (d : Decimal) : Rat := (d.coefficient : Rat) / ((Nat.pow 10 d.scale : Nat) : Rat)

/-- Whether the value is zero, whatever the sign and the scale. -/
def isZero (d : Decimal) : Bool := d.magnitude == 0

/-- The opposite sign, also of a zero. -/
def neg (d : Decimal) : Decimal := { d with negative := !d.negative }

instance : Neg Decimal := ⟨neg⟩

@[simp] theorem neg_neg (d : Decimal) : - -d = d := by
  show neg (neg d) = d
  cases d; simp [neg]

@[simp] theorem isZero_neg (d : Decimal) : (-d).isZero = d.isZero := rfl

@[simp] theorem coefficient_neg (d : Decimal) : (-d).coefficient = -d.coefficient := by
  show (neg d).coefficient = -d.coefficient
  cases d with
  | mk negative => cases negative <;> simp [neg, coefficient]

theorem coefficient_eq_zero_iff (d : Decimal) : d.coefficient = 0 ↔ d.isZero = true := by
  cases d with
  | mk negative => cases negative <;> simp [coefficient, isZero]

@[simp] theorem natAbs_coefficient (d : Decimal) : d.coefficient.natAbs = d.magnitude := by
  cases d with
  | mk negative => cases negative <;> simp [coefficient]

end Decimal

end DoubleEntry

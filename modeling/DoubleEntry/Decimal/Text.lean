import DoubleEntry.Decimal.Basic

/-! Decimals as text: every digit of the representation, or a fixed number of places after rounding
half away from zero. Reading takes each written fractional digit into the scale. -/

namespace DoubleEntry.Decimal

/-- `magnitude / 10 ^ places` with exactly `places` fractional digits. -/
def digitsWithPoint (magnitude places : Nat) : List Char :=
  let digits := Nat.toDigits 10 magnitude
  let padded := List.replicate (places + 1 - digits.length) '0' ++ digits
  if places = 0 then padded
  else
    let whole := padded.length - places
    padded.take whole ++ '.' :: padded.drop whole

def signText (negative : Bool) : List Char := if negative then ['-'] else []

/-- Every digit of the representation. -/
def text (d : Decimal) : List Char := signText d.negative ++ digitsWithPoint d.magnitude d.scale

instance : ToString Decimal := ⟨fun d => String.ofList d.text⟩

/-- `magnitude` without its last `dropped` digits, to nearest, a tie away from zero. -/
def roundHalfAway (magnitude dropped : Nat) : Nat :=
  let quotient := magnitude / Nat.pow 10 dropped
  if 2 * (magnitude % Nat.pow 10 dropped) < Nat.pow 10 dropped then quotient
  else quotient + 1

/-- The coefficient of the text with `places` fractional digits. -/
def magnitudeAt (d : Decimal) (places : Nat) : Nat :=
  if d.scale ≤ places then d.magnitude * Nat.pow 10 (places - d.scale)
  else roundHalfAway d.magnitude (d.scale - places)

/-- The value to `places` fractional digits, halves away from zero. What is rounded to zero loses
its sign; a zero with a sign keeps it. -/
def fixedText (d : Decimal) (places : Nat) : List Char :=
  let magnitude := d.magnitudeAt places
  signText (d.negative && (magnitude != 0 || d.isZero)) ++ digitsWithPoint magnitude places

/-- Reads digits with at most one point among them; none if they do not fit a decimal as they are
written. -/
def ofUnsigned? (text : List Char) : Option Decimal :=
  let whole := text.takeWhile (· != '.')
  let fraction := (text.dropWhile (· != '.')).drop 1
  let digits := whole ++ fraction
  if !digits.isEmpty && digits.all Char.isDigit then
    ofParts? false (Nat.ofDigitChars 10 digits 0) fraction.length
  else none

/-- Reads a decimal after an optional minus sign. A zero is read without its sign. -/
def ofText? (text : List Char) : Option Decimal :=
  match text with
  | '-' :: unsigned => (ofUnsigned? unsigned).map fun d => if d.isZero then d else -d
  | unsigned => ofUnsigned? unsigned

/-- The decimal that a text spells, zero if it spells none. -/
def spelled (text : String) : Decimal := (ofText? text.toList).getD .zero

theorem ofUnsigned?_not_negative {text : List Char} {d : Decimal}
    (read : ofUnsigned? text = some d) :
    d.negative = false := by
  simp only [ofUnsigned?, ofParts?] at read
  split at read
  · split at read
    · cases read; rfl
    · cases read
  · cases read

end DoubleEntry.Decimal

import DoubleEntry.Amount
import DoubleEntry.Proofs.Decimal.Addition
import DoubleEntry.Proofs.Text.Digits
import Mathlib.Data.List.DropRight

/-! Numbers as they are written, and the decimals that are read from them. A number is read, and read
exactly, if a decimal has its value: zeros at the end of the fraction do not stand in the way. -/

namespace DoubleEntry.Amount

open Decimal

def fractionDigits (number : List Char) : List Char :=
  (number.dropWhile (· != '.')).filter Char.isDigit

def digitsValue (number : List Char) : Nat := Nat.ofDigitChars 10 (number.filter Char.isDigit) 0

/-- The value that is written: the digits, those behind the point as a fraction. Characters that are
neither digits nor points do not count. -/
def writtenValue (number : List Char) : Rat :=
  (digitsValue number : Rat) / 10 ^ (fractionDigits number).length

/-- A number that has a coefficient and a scale within bounds. -/
def Fits (number : Rat) : Prop := ∃ magnitude scale : Nat,
  magnitude < 2 ^ 96 ∧ scale ≤ 28 ∧ number = (magnitude : Rat) / 10 ^ scale

/-- Digits, at least one, with at most one point among them. -/
structure Numeral (number : List Char) : Prop where
  characters : ∀ c ∈ number, c.isDigit = true ∨ c = '.'
  onePoint : number.count '.' ≤ 1
  someDigit : ∃ c ∈ number, c.isDigit = true

variable {number whole fraction : List Char}

theorem filter_digits (digits : ∀ c ∈ whole, c.isDigit = true) :
    whole.filter Char.isDigit = whole :=
  List.filter_eq_self.mpr digits

theorem no_point_of_digits (digits : ∀ c ∈ whole, c.isDigit = true) : '.' ∉ whole := by
  intro member
  exact absurd (digits '.' member) (by decide)

theorem dropWhile_point_of_digits (digits : ∀ c ∈ whole, c.isDigit = true) (rest : List Char) :
    (whole ++ rest).dropWhile (· != '.') = rest.dropWhile (· != '.') := by
  rw [List.dropWhile_append_of_pos]
  intro c member
  exact bne_iff_ne.mpr fun same => no_point_of_digits digits (same ▸ member)

theorem takeWhile_point_of_digits (digits : ∀ c ∈ whole, c.isDigit = true) (rest : List Char) :
    (whole ++ rest).takeWhile (· != '.') = whole ++ rest.takeWhile (· != '.') := by
  rw [List.takeWhile_append_of_pos]
  intro c member
  exact bne_iff_ne.mpr fun same => no_point_of_digits digits (same ▸ member)

theorem Numeral.cases (numeral : Numeral number) :
    (∀ c ∈ number, c.isDigit = true) ∨ ∃ whole fraction, number = whole ++ '.' :: fraction ∧
      (∀ c ∈ whole, c.isDigit = true) ∧ ∀ c ∈ fraction, c.isDigit = true := by
  by_cases pointed : '.' ∈ number
  · right
    obtain ⟨whole, fraction, rfl⟩ := List.append_of_mem pointed
    have counted := numeral.onePoint
    rw [List.count_append, List.count_cons_self] at counted
    have apart (part : List Char) (without : part.count '.' = 0)
        (inside : ∀ c ∈ part, c ∈ whole ++ '.' :: fraction) : ∀ c ∈ part, c.isDigit = true := by
      intro c member
      rcases numeral.characters c (inside c member) with digit | point
      · exact digit
      · exact absurd (point ▸ member) (List.count_eq_zero.mp without)
    exact ⟨whole, fraction, rfl, apart whole (by omega) (by simp_all),
      apart fraction (by omega) (by simp_all)⟩
  · left
    intro c member
    rcases numeral.characters c member with digit | point
    · exact digit
    · exact absurd (point ▸ member) pointed

theorem Numeral.of_digits (digits : ∀ c ∈ whole, c.isDigit = true) (nonempty : whole ≠ []) :
    Numeral whole where
  characters c member := .inl (digits c member)
  onePoint := by rw [List.count_eq_zero.mpr (no_point_of_digits digits)]; exact Nat.zero_le 1
  someDigit := by
    obtain ⟨first, member⟩ := List.exists_mem_of_ne_nil whole nonempty
    exact ⟨first, member, digits first member⟩

theorem Numeral.of_point (wholeDigits : ∀ c ∈ whole, c.isDigit = true)
    (fractionDigits : ∀ c ∈ fraction, c.isDigit = true) (nonempty : whole ++ fraction ≠ []) :
    Numeral (whole ++ '.' :: fraction) where
  characters c member := by
    rcases List.mem_append.mp member with left | right
    · exact .inl (wholeDigits c left)
    · rcases List.mem_cons.mp right with point | right
      · exact .inr point
      · exact .inl (fractionDigits c right)
  onePoint := by
    rw [List.count_append, List.count_cons_self,
      List.count_eq_zero.mpr (no_point_of_digits wholeDigits),
      List.count_eq_zero.mpr (no_point_of_digits fractionDigits)]
  someDigit := by
    obtain ⟨first, member⟩ := List.exists_mem_of_ne_nil _ nonempty
    rcases List.mem_append.mp member with left | right
    · exact ⟨first, by simp [left], wholeDigits first left⟩
    · exact ⟨first, by simp [right], fractionDigits first right⟩

/-! What digits with a point among them stand for. -/

theorem digitsValue_of_digits (digits : ∀ c ∈ whole, c.isDigit = true) :
    digitsValue whole = Nat.ofDigitChars 10 whole 0 := by
  rw [digitsValue, filter_digits digits]

theorem digitsValue_of_point (wholeDigits : ∀ c ∈ whole, c.isDigit = true)
    (digits : ∀ c ∈ fraction, c.isDigit = true) :
    digitsValue (whole ++ '.' :: fraction) = Nat.ofDigitChars 10 (whole ++ fraction) 0 := by
  rw [digitsValue, List.filter_append, List.filter_cons_of_neg (by decide),
    filter_digits wholeDigits, filter_digits digits]

theorem fractionDigits_of_digits (digits : ∀ c ∈ whole, c.isDigit = true) :
    fractionDigits whole = [] := by
  have nothing := dropWhile_point_of_digits digits []
  rw [List.append_nil] at nothing
  rw [fractionDigits, nothing]
  rfl

theorem fractionDigits_of_point (wholeDigits : ∀ c ∈ whole, c.isDigit = true)
    (digits : ∀ c ∈ fraction, c.isDigit = true) :
    fractionDigits (whole ++ '.' :: fraction) = fraction := by
  rw [fractionDigits, dropWhile_point_of_digits wholeDigits,
    List.dropWhile_cons_of_neg (by decide), List.filter_cons_of_neg (by decide),
    filter_digits digits]

/-- A number is read as its digits at the scale of its fraction. -/
theorem ofUnsigned?_eq (numeral : Numeral number) :
    ofUnsigned? number =
      ofParts? false (digitsValue number) (fractionDigits number).length := by
  have accepted {digits : List Char} (all : ∀ c ∈ digits, c.isDigit = true)
      (nonempty : digits ≠ []) : (!digits.isEmpty && digits.all Char.isDigit) = true := by
    rw [Bool.and_eq_true, List.all_eq_true]
    exact ⟨by simpa using nonempty, all⟩
  rcases numeral.cases with digits | ⟨whole, fraction, rfl, wholeDigits, digits⟩
  · obtain ⟨c, member, _⟩ := numeral.someDigit
    have taken := takeWhile_point_of_digits digits []
    have dropped := dropWhile_point_of_digits digits []
    simp only [List.append_nil, List.takeWhile_nil, List.dropWhile_nil] at taken dropped
    rw [ofUnsigned?, taken, dropped, List.drop_nil, List.append_nil,
      if_pos (accepted digits (List.ne_nil_of_mem member)), fractionDigits_of_digits digits,
      digitsValue_of_digits digits]
  · obtain ⟨c, member, digit⟩ := numeral.someDigit
    have nonempty : whole ++ fraction ≠ [] := by
      rcases List.mem_append.mp member with left | right
      · exact List.ne_nil_of_mem (List.mem_append_left fraction left)
      · rcases List.mem_cons.mp right with rfl | right
        · exact absurd digit (by decide)
        · exact List.ne_nil_of_mem (List.mem_append_right whole right)
    have all : ∀ c ∈ whole ++ fraction, c.isDigit = true := by
      intro c member
      rcases List.mem_append.mp member with left | right
      · exact wholeDigits c left
      · exact digits c right
    rw [ofUnsigned?, takeWhile_point_of_digits wholeDigits,
      dropWhile_point_of_digits wholeDigits, List.takeWhile_cons_of_neg (by decide),
      List.dropWhile_cons_of_neg (by decide), List.append_nil, List.drop_one, List.tail_cons,
      if_pos (accepted all nonempty), fractionDigits_of_point wholeDigits digits,
      digitsValue_of_point wholeDigits digits]

theorem characters_of_ofUnsigned? {d : Decimal} (read : ofUnsigned? number = some d) :
    ∀ c ∈ number, c.isDigit = true ∨ c = '.' := by
  intro c member
  simp only [ofUnsigned?] at read
  split at read
  case isFalse => cases read
  case isTrue accepted =>
    rw [Bool.and_eq_true, List.all_eq_true] at accepted
    have digits := accepted.2
    rw [← List.takeWhile_append_dropWhile (p := (· != '.')) (l := number)] at member
    rcases List.mem_append.mp member with left | right
    · exact .inl (digits c (List.mem_append_left _ left))
    · cases pointed : number.dropWhile (· != '.') with
      | nil => simp [pointed] at right
      | cons point fraction =>
        rw [pointed] at right digits
        rcases List.mem_cons.mp right with rfl | right
        · have stopped := List.head?_dropWhile_not (· != '.') number
          rw [pointed] at stopped
          exact .inr (by simpa using stopped)
        · exact .inl (digits c (List.mem_append_right _ right))

theorem value_of_ofUnsigned? {d : Decimal} (numeral : Numeral number)
    (read : ofUnsigned? number = some d) : d.value = writtenValue number := by
  rw [ofUnsigned?_eq numeral] at read
  obtain ⟨sign, magnitude, scale⟩ := ofParts?_eq_some read
  have coefficient : d.coefficient = digitsValue number := by
    rw [Decimal.coefficient, sign, magnitude]
    rfl
  rw [value_eq_div, coefficient, scale, writtenValue, Int.cast_natCast]

/-! Zeros at the end of a fraction. -/

/-- The fraction without the zeros that it ends in. -/
def withoutZeros (fraction : List Char) : List Char := fraction.rdropWhile (· == '0')

theorem withoutZeros_append (fraction : List Char) :
    ∃ zeros, fraction = withoutZeros fraction ++ List.replicate zeros '0' := by
  refine ⟨(fraction.rtakeWhile (· == '0')).length, ?_⟩
  have dropped : fraction.rtakeWhile (· == '0') =
      List.replicate (fraction.rtakeWhile (· == '0')).length '0' := by
    refine List.eq_replicate_of_mem fun c member => ?_
    simpa using List.mem_rtakeWhile_imp member
  rw [← dropped, withoutZeros, List.rdropWhile_append_rtakeWhile]

theorem withoutZeros_digits (digits : ∀ c ∈ fraction, c.isDigit = true) :
    ∀ c ∈ withoutZeros fraction, c.isDigit = true :=
  fun c member => digits c ((List.rdropWhile_prefix _ _).subset member)

theorem digits_reverse (digits : ∀ c ∈ whole, c.isDigit = true) :
    ∀ c ∈ whole.reverse, c.isDigit = true :=
  fun c member => digits c (List.mem_reverse.mp member)

theorem dropWhile_point_eq_self (digits : ∀ c ∈ whole, c.isDigit = true) :
    whole.dropWhile (· == '.') = whole := by
  rw [List.dropWhile_eq_self_iff]
  intro nonempty same
  exact no_point_of_digits digits (eq_of_beq same ▸ List.getElem_mem nonempty)

/-- Without the zeros that a fraction ends in, nothing is left of it but digits that count, and then
no point either; nothing at all is a zero. -/
theorem significantDigits_of_point (wholeDigits : ∀ c ∈ whole, c.isDigit = true)
    (digits : ∀ c ∈ fraction, c.isDigit = true) :
    significantDigits (whole ++ '.' :: fraction) =
      if withoutZeros fraction = [] then if whole = [] then ['0'] else whole
      else whole ++ '.' :: withoutZeros fraction := by
  have pointed : (whole ++ '.' :: fraction).contains '.' = true := by simp
  have reversed : (whole ++ '.' :: fraction).reverse = fraction.reverse ++ '.' :: whole.reverse := by
    simp
  have wholeKept := dropWhile_point_eq_self (digits_reverse wholeDigits)
  have fractionKept := dropWhile_point_eq_self (digits_reverse (withoutZeros_digits digits))
  have kept : fraction.reverse.dropWhile (· == '0') = (withoutZeros fraction).reverse := by
    rw [withoutZeros, List.rdropWhile, List.reverse_reverse]
  rw [significantDigits, if_pos pointed, reversed, List.dropWhile_append, kept]
  by_cases nothing : withoutZeros fraction = []
  · simp [nothing, wholeKept]
  · simp [nothing, List.dropWhile_append, fractionKept]

theorem significantDigits_of_digits (digits : ∀ c ∈ whole, c.isDigit = true) :
    significantDigits whole = whole := by
  have pointless : ¬ whole.contains '.' = true := by
    simpa using no_point_of_digits digits
  rw [significantDigits, if_neg pointless]

/-- What `significantDigits` makes of a number: a number of the same value, whose fraction is empty
or ends in a digit that counts. -/
structure Significant (number short : List Char) : Prop where
  numeral : Numeral short
  value : writtenValue short = writtenValue number
  counts : fractionDigits short = [] ∨ ¬ 10 ∣ digitsValue short

theorem writtenValue_of_point (wholeDigits : ∀ c ∈ whole, c.isDigit = true)
    (digits : ∀ c ∈ fraction, c.isDigit = true) :
    writtenValue (whole ++ '.' :: fraction) =
      (Nat.ofDigitChars 10 (whole ++ fraction) 0 : Rat) / 10 ^ fraction.length := by
  rw [writtenValue, digitsValue_of_point wholeDigits digits,
    fractionDigits_of_point wholeDigits digits]

theorem writtenValue_of_digits (digits : ∀ c ∈ whole, c.isDigit = true) :
    writtenValue whole = Nat.ofDigitChars 10 whole 0 := by
  rw [writtenValue, digitsValue_of_digits digits, fractionDigits_of_digits digits]
  simp

theorem writtenValue_append_zeros (wholeDigits : ∀ c ∈ whole, c.isDigit = true)
    (digits : ∀ c ∈ fraction, c.isDigit = true) :
    writtenValue (whole ++ '.' :: fraction) =
      (Nat.ofDigitChars 10 (whole ++ withoutZeros fraction) 0 : Rat) /
        10 ^ (withoutZeros fraction).length := by
  obtain ⟨zeros, split⟩ := withoutZeros_append fraction
  rw [writtenValue_of_point wholeDigits digits]
  generalize withoutZeros fraction = kept at split
  subst split
  rw [← List.append_assoc, Nat.ofDigitChars_append, Nat.ofDigitChars_replicate_zero,
    List.length_append, List.length_replicate, pow_add]
  push_cast
  field_simp

/-- A digit other than zero at the end is not lost. -/
theorem not_dvd_of_withoutZeros (digits : ∀ c ∈ fraction, c.isDigit = true)
    (nonempty : withoutZeros fraction ≠ []) :
    ¬ 10 ∣ Nat.ofDigitChars 10 (whole ++ withoutZeros fraction) 0 := by
  have last := List.rdropWhile_last_not (· == '0') fraction nonempty
  have digit := withoutZeros_digits digits _ (List.getLast_mem nonempty)
  have parts := List.dropLast_append_getLast nonempty
  change ¬ ((withoutZeros fraction).getLast nonempty == '0') = true at last
  generalize (withoutZeros fraction).getLast nonempty = c at last digit parts
  rw [← parts, ← List.append_assoc, Text.ofDigitChars_concat]
  have bounds : 48 ≤ c.toNat ∧ c.toNat ≤ 57 := Char.isDigit_iff_toNat.mp digit
  have other : c.toNat ≠ 48 := by
    intro same
    exact last (beq_iff_eq.mpr (Char.toNat_inj.mp same))
  have zero : '0'.toNat = 48 := rfl
  omega

theorem significant (numeral : Numeral number) :
    Significant number (significantDigits number) := by
  rcases numeral.cases with digits | ⟨whole, fraction, rfl, wholeDigits, digits⟩
  · rw [significantDigits_of_digits digits]
    exact ⟨numeral, rfl, .inl (fractionDigits_of_digits digits)⟩
  · have value := writtenValue_append_zeros wholeDigits digits
    rw [significantDigits_of_point wholeDigits digits]
    by_cases nothing : withoutZeros fraction = []
    · rw [if_pos nothing]
      rw [nothing, List.append_nil, List.length_nil, pow_zero, div_one] at value
      by_cases empty : whole = []
      · rw [if_pos empty]
        have zeroDigits : ∀ c ∈ ['0'], c.isDigit = true := by simp
        refine ⟨.of_digits zeroDigits (by simp), ?_, .inl (fractionDigits_of_digits zeroDigits)⟩
        rw [writtenValue_of_digits zeroDigits, value, empty]
        rfl
      · rw [if_neg empty]
        exact ⟨.of_digits wholeDigits empty, by rw [writtenValue_of_digits wholeDigits, value],
          .inl (fractionDigits_of_digits wholeDigits)⟩
    · rw [if_neg nothing]
      have keptDigits := withoutZeros_digits digits
      refine ⟨.of_point wholeDigits keptDigits (by simp [nothing]), ?_, .inr ?_⟩
      · rw [value, writtenValue_of_point wholeDigits keptDigits]
      · rw [digitsValue_of_point wholeDigits keptDigits]
        exact not_dvd_of_withoutZeros digits nothing

/-- A coefficient that ends in a digit that counts is the least there is for its value. -/
theorem bounds_of_significant {coefficient places magnitude scale : Nat}
    (counts : places = 0 ∨ ¬ 10 ∣ coefficient)
    (same : (coefficient : Rat) / 10 ^ places = (magnitude : Rat) / 10 ^ scale) :
    coefficient ≤ magnitude ∧ places ≤ scale := by
  have crossed : coefficient * 10 ^ scale = magnitude * 10 ^ places := by
    field_simp at same
    rw [mul_comm magnitude]
    exact_mod_cast same
  rcases Nat.le_total places scale with fewer | more
  · obtain ⟨extra, rfl⟩ := Nat.exists_eq_add_of_le fewer
    refine ⟨?_, fewer⟩
    have scaled : coefficient * 10 ^ extra = magnitude := by
      refine Nat.eq_of_mul_eq_mul_right (Nat.pow_pos (n := places) (by decide : 0 < 10)) ?_
      rw [← crossed, pow_add]
      ring
    rw [← scaled]
    exact Nat.le_mul_of_pos_right coefficient (Nat.pow_pos (by decide))
  · -- more places than the scale would mean zeros at the end of the coefficient
    obtain ⟨extra, rfl⟩ := Nat.exists_eq_add_of_le more
    have scaled : coefficient = magnitude * 10 ^ extra := by
      refine Nat.eq_of_mul_eq_mul_right (Nat.pow_pos (n := scale) (by decide : 0 < 10)) ?_
      rw [crossed, pow_add]
      ring
    cases extra with
    | zero => exact ⟨by rw [scaled]; simp, le_refl _⟩
    | succ extra =>
      rcases counts with none | odd
      · omega
      · exact absurd ⟨magnitude * 10 ^ extra, by rw [scaled, pow_succ]; ring⟩ odd

/-- Only zeros and points are left out. -/
theorem mem_significantDigits {c : Char} (member : c ∈ number) :
    c ∈ significantDigits number ∨ c.isDigit = true ∨ c = '.' := by
  have left (text : List Char) (mark : Char) (member : c ∈ text) :
      c ∈ text.dropWhile (· == mark) ∨ c = mark := by
    rw [← List.takeWhile_append_dropWhile (p := (· == mark)) (l := text)] at member
    rcases List.mem_append.mp member with dropped | kept
    · exact .inr (by simpa using List.mem_takeWhile_imp dropped)
    · exact .inl kept
  unfold significantDigits
  split
  case isFalse => exact .inl member
  case isTrue =>
    rcases left _ '0' (List.mem_reverse.mpr member) with kept | rfl
    · rcases left _ '.' kept with kept | rfl
      · left
        dsimp only
        rw [if_neg (by simpa using List.ne_nil_of_mem kept)]
        exact List.mem_reverse.mpr kept
      · exact .inr (.inr rfl)
    · exact .inr (.inl rfl)

theorem characters_of_readNumber? {d : Decimal} (read : readNumber? number = some d) :
    ∀ c ∈ number, c.isDigit = true ∨ c = '.' := by
  intro c member
  rcases Option.or_eq_some_iff.mp read with whole | ⟨_, stripped⟩
  · exact characters_of_ofUnsigned? whole c member
  · rcases mem_significantDigits member with kept | other
    · exact characters_of_ofUnsigned? stripped c kept
    · exact other

theorem readNumber?_isSome_iff (numeral : Numeral number) :
    (readNumber? number).isSome ↔ Fits (writtenValue number) := by
  have short := significant numeral
  rw [readNumber?, Option.isSome_or, Bool.or_eq_true]
  constructor
  · have fits {digits : List Char} (written : Numeral digits)
        (read : (ofUnsigned? digits).isSome) : Fits (writtenValue digits) := by
      rw [ofUnsigned?_eq written, ofParts?] at read
      split at read
      case isTrue bounds => exact ⟨_, _, bounds.1, bounds.2, rfl⟩
      case isFalse => cases read
    rintro (whole | stripped)
    · exact fits numeral whole
    · rw [← short.value]
      exact fits short.numeral stripped
  · rintro ⟨magnitude, scale, magnitudeLt, scaleLe, same⟩
    right
    rw [← short.value, writtenValue] at same
    have counts : (fractionDigits (significantDigits number)).length = 0 ∨
        ¬ 10 ∣ digitsValue (significantDigits number) := by
      rw [List.length_eq_zero_iff]
      exact short.counts
    obtain ⟨less, fewer⟩ := bounds_of_significant counts same
    rw [ofUnsigned?_eq short.numeral, ofParts?,
      dif_pos ⟨Nat.lt_of_le_of_lt less magnitudeLt, fewer.trans scaleLe⟩]
    rfl

theorem value_of_readNumber? {d : Decimal} (numeral : Numeral number)
    (read : readNumber? number = some d) : d.value = writtenValue number ∧ d.negative = false := by
  have short := significant numeral
  rcases Option.or_eq_some_iff.mp read with whole | ⟨_, stripped⟩
  · exact ⟨value_of_ofUnsigned? numeral whole, ofUnsigned?_not_negative whole⟩
  · rw [← short.value]
    exact ⟨value_of_ofUnsigned? short.numeral stripped, ofUnsigned?_not_negative stripped⟩

end DoubleEntry.Amount

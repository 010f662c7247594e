import DoubleEntry.Proofs.Amount.Printing
import DoubleEntry.Proofs.Balancing.Completion
import DoubleEntry.Proofs.Decimal.Rounding

/-! Decimals of one value as text. They are shown alike, however many fractional digits they have,
but for zeros: a zero keeps its sign. A sum has no such zero unless one was added last; so it is
either written in a journal, or it is what amounts that cancel out leave for an elided posting. -/

namespace DoubleEntry

namespace Decimal

variable {first second sum total amount : Decimal} {amounts : List Decimal} {places : Nat}

def IsNegativeZero (d : Decimal) : Prop := d.isZero = true ∧ d.negative = true

instance (d : Decimal) : Decidable d.IsNegativeZero := inferInstanceAs (Decidable (_ ∧ _))

theorem magnitudeAt_of_value_eq (same : first.value = second.value) (places : Nat) :
    first.magnitudeAt places = second.magnitudeAt places := by
  have rounded := round_abs_value first places
  rw [same, round_abs_value] at rounded
  exact_mod_cast rounded.symm

theorem isZero_of_value_eq (same : first.value = second.value) : first.isZero = second.isZero := by
  rw [Bool.eq_iff_iff, ← value_eq_zero_iff, ← value_eq_zero_iff, same]

/-- But for zeros the value decides on the sign. -/
theorem negative_of_value_eq (same : first.value = second.value)
    (nonzero : first.isZero = false) : first.negative = second.negative := by
  have less : first.value < 0 ↔ second.value < 0 := by rw [same]
  rw [value_neg_iff, value_neg_iff, ← isZero_of_value_eq same, nonzero] at less
  rw [Bool.eq_iff_iff]
  exact (and_iff_left rfl).symm.trans (less.trans (and_iff_left rfl))

/-- Decimals of one value are shown alike unless one of them is a negative zero. -/
theorem fixedText_eq_iff (same : first.value = second.value) (places : Nat) :
    first.fixedText places = second.fixedText places ↔
      (first.IsNegativeZero ↔ second.IsNegativeZero) := by
  have zeros := isZero_of_value_eq same
  rw [fixedText_eq, fixedText_eq, magnitudeAt_of_value_eq same, List.append_left_inj, showsSign,
    showsSign, magnitudeAt_of_value_eq same, IsNegativeZero, IsNegativeZero, ← zeros]
  cases zero : first.isZero with
  | false =>
    rw [negative_of_value_eq same zero]
    simp
  | true => cases first.negative <;> cases second.negative <;> simp [signText]

theorem showsSign_iff (d : Decimal) (places : Nat) :
    d.showsSign places = true ↔ roundedTo d.value places < 0 ∨ d.IsNegativeZero := by
  have unit : (0 : Rat) < 10 ^ places := by positivity
  have magnitude : (0 : Rat) ≤ (d.magnitudeAt places : Rat) / 10 ^ places := by positivity
  rw [roundedTo_value]
  cases shown : d.showsSign places with
  | false =>
    have signed : ¬ d.IsNegativeZero := by
      rintro ⟨zero, negative⟩
      simp [showsSign, zero, negative] at shown
    simpa [signed] using magnitude
  | true =>
    simp only [showsSign, Bool.and_eq_true, Bool.or_eq_true, bne_iff_ne] at shown
    rcases shown with ⟨negative, some | zero⟩
    · have positive : (0 : Rat) < (d.magnitudeAt places : Rat) / 10 ^ places :=
        div_pos (by exact_mod_cast Nat.pos_of_ne_zero some) unit
      rw [if_pos rfl, neg_lt_zero]
      exact iff_of_true rfl (.inl positive)
    · simp [IsNegativeZero, zero, negative]

/-- The minus sign is the only dash of a number. -/
theorem dash_mem_fixedText_iff (d : Decimal) (places : Nat) :
    '-' ∈ d.fixedText places ↔ d.showsSign places = true := by
  have digits : '-' ∉ digitsWithPoint (d.magnitudeAt places) places := by
    intro member
    rcases (Commodity.numeral_shownDigits d places).characters '-' member with digit | point
    · cases digit
    · cases point
  rw [fixedText_eq, List.mem_append, or_iff_left digits, signText]
  split <;> simp_all

/-! Sums. -/

/-- Digits are dropped only where some are left. -/
theorem eq_zero_of_fit? {negative : Bool} {magnitude scale : Nat} (scaleLe : scale ≤ 28)
    (made : fit? negative magnitude scale = some sum) (zero : sum.isZero = true) :
    magnitude = 0 := by
  obtain ⟨dropped, droppedLe, chosen, least⟩ := fit?_eq_some made
  have nothing : roundHalfEven magnitude dropped = 0 := by
    rw [← (ofParts?_eq_some chosen).2.1]
    exact beq_iff_eq.mp zero
  cases dropped with
  | zero => rwa [roundHalfEven_zero] at nothing
  | succ dropped =>
    -- No digit is dropped if all of them fit; and what is too large for that does not vanish.
    have large : ¬ magnitude < 2 ^ 96 := by
      have rejected := least 0 (Nat.succ_pos _)
      rw [roundHalfEven_zero, Nat.sub_zero] at rejected
      rw [← @ofParts?_isSome_iff negative magnitude scale scaleLe, rejected]
      exact Bool.false_ne_true
    have small := (roundHalfEven_lt_iff magnitude (dropped + 1) 1).mp (by omega)
    have unit : 10 ^ (dropped + 1) ≤ 10 ^ 28 :=
      Nat.pow_le_pow_right (by decide) (droppedLe.trans scaleLe)
    omega

/-- A sum that is a negative zero is what was added last. -/
theorem eq_of_add?_isNegativeZero (added : add? total amount = some sum)
    (negativeZero : sum.IsNegativeZero) : sum = amount := by
  obtain ⟨zero, negative⟩ := negativeZero
  by_cases left : total.isZero = true
  · rw [add?_zero_left left] at added
    exact (Option.some.inj added).symm
  rw [Bool.not_eq_true] at left
  by_cases right : amount.isZero = true
  · rw [add?_zero_right left right] at added
    rw [← Option.some.inj added, left] at zero
    cases zero
  rw [Bool.not_eq_true] at right
  rw [add?_of_nonzero left right] at added
  have nothing := eq_zero_of_fit? (max_le total.scale_le amount.scale_le) added zero
  obtain ⟨_, _, chosen, _⟩ := fit?_eq_some added
  rw [Int.natAbs_eq_zero] at nothing
  rw [(ofParts?_eq_some chosen).1, nothing] at negative
  cases negative

/-- A running sum that starts without one is a negative zero only if one is added. -/
theorem exists_isNegativeZero_of_sumFrom? (summed : sumFrom? total amounts = some sum)
    (start : ¬ total.IsNegativeZero) (negativeZero : sum.IsNegativeZero) :
    ∃ amount ∈ amounts, amount.IsNegativeZero := by
  induction amounts generalizing total with
  | nil =>
    cases summed
    exact absurd negativeZero start
  | cons amount amounts ih =>
    rw [sumFrom?_cons] at summed
    obtain ⟨next, added, rest⟩ := Option.bind_eq_some_iff.mp summed
    by_cases here : next.IsNegativeZero
    · exact ⟨amount, List.mem_cons_self .., eq_of_add?_isNegativeZero added here ▸ here⟩
    · obtain ⟨later, member, found⟩ := ih rest here
      exact ⟨later, List.mem_cons_of_mem _ member, found⟩

theorem isNegativeZero_neg (d : Decimal) :
    (-d).IsNegativeZero ↔ d.isZero = true ∧ d.negative = false := by
  refine and_congr_right fun _ => ?_
  show (!d.negative) = true ↔ d.negative = false
  rw [Bool.not_eq_true']

end Decimal

namespace Transaction

variable {transaction : Transaction} {amounts : Balance} {commodity : Commodity} {amount : Decimal}

/-- What amounts that cancel out leave over is a negative zero, unless they have one among them. -/
theorem IsRemainder.isNegativeZero (remainder : transaction.IsRemainder amounts)
    (found : amounts.find? commodity = some amount) (zero : amount.isZero = true)
    (unsigned : ∀ written ∈ transaction.amountsOf commodity, ¬ written.IsNegativeZero) :
    amount.IsNegativeZero := by
  have mentioned : commodity ∈ transaction.commodities :=
    (remainder.mentions commodity).mp (SortedMap.mem_keys_of_find? found)
  obtain ⟨sum, summed, negated⟩ := remainder.negates commodity mentioned
  obtain rfl : -sum = amount := Option.some.inj (negated.symm.trans found)
  rw [Decimal.isNegativeZero_neg]
  rw [Decimal.isZero_neg] at zero
  refine ⟨zero, Bool.eq_false_iff.mpr fun negative => ?_⟩
  obtain ⟨written, member, negativeZero⟩ :=
    Decimal.exists_isNegativeZero_of_sumFrom? summed (by decide) ⟨zero, negative⟩
  exact unsigned written member negativeZero

end Transaction

/-- How amounts of one value are shown, in every commodity and to any number of places. Two of them
are shown alike if and only if neither or both are negative zeros. A minus sign is shown for what is
negative after rounding, and for a negative zero. What is filled in where a commodity cancels out
already is a negative zero and shown as one, unless a negative zero has been written. -/
theorem Commodity.format_eq_iff (commodity : Commodity) (places : Nat) {first second : Decimal}
    (same : first.value = second.value) :
    (commodity.format first places = commodity.format second places ↔
      (first.IsNegativeZero ↔ second.IsNegativeZero)) ∧
    ('-' ∈ first.fixedText places ↔ roundedTo first.value places < 0 ∨ first.IsNegativeZero) ∧
    (∀ (transaction completed : Transaction), transaction.completed = .ok completed →
      ∀ (index : Nat) (posting : Posting), transaction.postings[index]? = some posting →
        posting.isElided = true → ∃ amounts : Balance,
          completed.postings[index]? = some { posting with amounts := some amounts } ∧
          ∀ amount, amounts.find? commodity = some amount → amount.isZero = true →
            (∀ written ∈ transaction.amountsOf commodity, ¬ written.IsNegativeZero) →
              amount.IsNegativeZero ∧ '-' ∈ amount.fixedText places) := by
  have sign (amount : Decimal) : '-' ∈ amount.fixedText places ↔
      roundedTo amount.value places < 0 ∨ amount.IsNegativeZero :=
    (amount.dash_mem_fixedText_iff places).trans (amount.showsSign_iff places)
  refine ⟨?_, sign first, fun transaction completed whole index posting found elided => ?_⟩
  · rw [← Decimal.fixedText_eq_iff same places, ← String.toList_inj, Commodity.toList_format,
      Commodity.toList_format]
    split
    · exact List.append_right_inj _
    · exact List.append_left_inj _
  · obtain ⟨amounts, remainder, filled⟩ :=
      (Transaction.completedBy_of_completed whole).filled index posting found elided
    refine ⟨amounts, filled, fun amount here zero unsigned => ?_⟩
    have negativeZero := remainder.isNegativeZero here zero unsigned
    exact ⟨negativeZero, (sign amount).mpr (.inr negativeZero)⟩

/-- Five dollars that cancel out, so that nothing is left for the third account. -/
def Transaction.evenSwap : Transaction :=
  let dollars (amount : String) : Option Balance := some (.single ⟨"$", true⟩ (.spelled amount))
  { date := default
    description := "Swap"
    postings := [⟨["Cash"], dollars "5"⟩, ⟨["Bank"], dollars "-5.00"⟩, ⟨["Fees"], none⟩] }

theorem Transaction.evenSwap_format_eq_iff :
    (Decimal.spelled "-1.50").value = (Decimal.spelled "-1.5").value ∧
    Commodity.format ⟨"$", true⟩ (.spelled "-1.50") =
      Commodity.format ⟨"$", true⟩ (.spelled "-1.5") ∧
    ∃ (completed : Transaction) (amounts : Balance) (amount : Decimal),
      evenSwap.completed = .ok completed ∧
      completed.postings[2]? = some ⟨["Fees"], some amounts⟩ ∧
      amounts.find? ⟨"$", true⟩ = some amount ∧ amount.isZero = true ∧ amount.IsNegativeZero ∧
      '-' ∈ amount.fixedText 2 := by
  have same : (Decimal.spelled "-1.50").value = (Decimal.spelled "-1.5").value := by
    decide +kernel
  obtain ⟨alike, _, inferred⟩ := Commodity.format_eq_iff ⟨"$", true⟩ 2 same
  obtain ⟨completed, whole⟩ : ∃ completed, evenSwap.completed = .ok completed := ⟨_, rfl⟩
  obtain ⟨amounts, filled, negativeZeros⟩ :=
    inferred evenSwap completed whole 2 ⟨["Fees"], none⟩ rfl rfl
  have nothing : (evenSwap.completed.toOption.bind fun completed =>
      completed.postings[2]?.bind fun posting => posting.amounts.bind (·.find? ⟨"$", true⟩)) =
        some (-Decimal.spelled "0.00") := by decide
  rw [whole] at nothing
  simp only [Except.toOption, Option.bind_some, filled] at nothing
  obtain ⟨negativeZero, minus⟩ := negativeZeros _ nothing rfl (by decide)
  exact ⟨same, alike.mpr (by decide), completed, amounts, _, whole, filled, nothing, rfl,
    negativeZero, minus⟩

/-- Nothing is shown in two ways: as it is read, and as what is left of amounts that cancel out. -/
theorem Transaction.evenSwap_format_ne :
    ∃ (completed : Transaction) (amounts : Balance) (amount : Decimal),
      evenSwap.completed = .ok completed ∧
      completed.postings[2]? = some ⟨["Fees"], some amounts⟩ ∧
      amounts.find? ⟨"$", true⟩ = some amount ∧ amount.value = Decimal.zero.value ∧
      Commodity.format ⟨"$", true⟩ amount = "$-0.00" ∧
      Commodity.format ⟨"$", true⟩ .zero = "$0.00" :=
  ⟨_, _, _, rfl, rfl, rfl, by decide +kernel, by decide +kernel, by decide +kernel⟩

end DoubleEntry

import DoubleEntry.Proofs.Amount.Printing

/-! Amounts that are shown and read again. Apart from rounding nothing is lost but blanks in front of
a leading name, and a name is read with such blanks only where a minus sign stands apart from it. -/

namespace DoubleEntry

/-- What is shown is read again, for every number, every number of decimal places, and every
commodity without a name, or with a leading name that has no blank in front, no digit of any script,
point, comma or minus sign, or with a trailing name that has no blank at its end, no digit, point or
comma: it is read as an amount of the same commodity, rounded to the places that are shown, halves
away from zero. -/
theorem readAmount_format_rounded (number : Decimal) (places : Nat) (commodity : Commodity)
    (legible : commodity.Legible) (flush : commodity.Flush) :
    ∃ amount, readAmount (commodity.format number places).toList = .ok amount ∧
      amount.number.value = roundedTo number.value places ∧
      amount.commodity = if commodity = .bare then none else some commodity := by
  obtain ⟨amount, read, value, same⟩ := Commodity.readAmount_format number places legible
  refine ⟨amount, read, value, ?_⟩
  rw [same, legible.reread_eq_self_iff.mpr flush]
  rfl

/-- A half below zero is rounded down. -/
theorem readAmount_format_rounded_half :
    (⟨"$ ", true⟩ : Commodity).Legible ∧ (⟨"$ ", true⟩ : Commodity).Flush ∧
      (⟨"$ ", true⟩ : Commodity).format (.spelled "-2.345") 2 = "$ -2.35" ∧
      ∃ amount, readAmount "$ -2.35".toList = .ok amount ∧ amount.number.value = -(47 / 20) ∧
        amount.commodity = some ⟨"$ ", true⟩ := by
  have legible : (⟨"$ ", true⟩ : Commodity).Legible := by decide +kernel
  have flush : (⟨"$ ", true⟩ : Commodity).Flush := by decide +kernel
  have shown : (⟨"$ ", true⟩ : Commodity).format (.spelled "-2.345") 2 = "$ -2.35" := by decide
  have half : roundedTo (Decimal.spelled "-2.345").value 2 = -(47 / 20) := by decide +kernel
  obtain ⟨amount, read, value, same⟩ :=
    readAmount_format_rounded (.spelled "-2.345") 2 ⟨"$ ", true⟩ legible flush
  rw [shown] at read
  rw [half] at value
  exact ⟨legible, flush, shown, amount, read, value, same⟩

namespace Amount

/-- A text with a minus sign in front and a blank behind it. -/
def SignApart (text : List Char) : Prop :=
  ∃ c rest, text = '-' :: c :: rest ∧ Text.isBlank c = true

theorem signApart_cons {c : Char} {rest : List Char} :
    SignApart (c :: rest) ↔ c = '-' ∧ ∃ blank ∈ rest.head?, Text.isBlank blank = true := by
  constructor
  · rintro ⟨blank, more, same, isBlank⟩
    obtain ⟨dash, rfl⟩ := List.cons.inj same
    exact ⟨dash, blank, rfl, isBlank⟩
  · rintro ⟨rfl, blank, starts, isBlank⟩
    obtain ⟨more, rfl⟩ := List.head?_eq_some_iff.mp starts
    exact ⟨blank, more, rfl, isBlank⟩

namespace Parts

variable {parts : Parts}

/-- What stands behind the name and the inner sign starts with neither a sign nor a blank. -/
theorem WellFormed.head?_number (formed : parts.WellFormed) :
    ∀ c ∈ (parts.number ++ parts.trailing).head?, c ≠ '-' ∧ Text.isBlank c = false := by
  obtain ⟨digit, inside, _⟩ := formed.someDigit
  rw [List.head?_append_of_ne_nil _ (List.ne_nil_of_mem inside)]
  intro c starts
  have member := List.mem_of_mem_head? starts
  refine ⟨isNumeric_ne_dash (formed.isNumeric_of_mem member), ?_⟩
  rcases formed.characters c member with digit | rfl | rfl
  · exact Text.not_isBlank_of_isDigit digit
  · decide
  · decide

/-- Without an outer sign no sign stands apart: a name in front of the inner one has no sign in it. -/
theorem WellFormed.not_signApart (formed : parts.WellFormed) (unsigned : parts.outerSign = false) :
    ¬ SignApart parts.text := by
  have number := formed.head?_number
  have noDash := formed.leading
  rw [text, unsigned]
  rintro ⟨blank, rest, same, isBlank⟩
  cases leading : parts.leading with
  | cons c name =>
    rw [leading] at same noDash
    exact (noDash c List.mem_cons_self).2.2.2 (List.cons.inj same).1
  | nil =>
    rw [leading] at same
    generalize parts.number ++ parts.trailing = behind at number same
    cases signed : parts.innerSign with
    | true =>
      rw [signed] at same
      have starts : behind = blank :: rest := (List.cons.inj same).2
      have solid := (number blank (by rw [starts]; rfl)).2
      rw [isBlank] at solid
      cases solid
    | false =>
      rw [signed] at same
      have starts : behind = '-' :: blank :: rest := same
      exact (number '-' (by rw [starts]; rfl)).1 rfl

/-- A sign stands apart if it is the outer one and the name behind it starts with a blank. -/
theorem WellFormed.signApart_iff (formed : parts.WellFormed) :
    SignApart parts.text ↔
      parts.outerSign = true ∧ ∃ c ∈ parts.leading.head?, Text.isBlank c = true := by
  have number := formed.head?_number
  cases signed : parts.outerSign with
  | false => exact iff_of_false (formed.not_signApart signed) (by simp)
  | true =>
    have inner : parts.innerSign = false := by
      by_contra both
      exact formed.oneSign ⟨signed, by simpa using both⟩
    have shown : parts.text = '-' :: (parts.leading ++ (parts.number ++ parts.trailing)) := by
      rw [text, signed, inner]
      rfl
    rw [shown, signApart_cons, eq_self, true_and, eq_self, true_and]
    cases leading : parts.leading with
    | cons c name => rfl
    | nil =>
      refine iff_of_false ?_ (by simp)
      rintro ⟨c, starts, isBlank⟩
      have solid := (number c starts).2
      rw [isBlank] at solid
      cases solid

end Parts

end Amount

namespace Commodity

variable {text : List Char} {amount : Amount}

theorem written?_inj {commodity other : Commodity} :
    commodity.written? = other.written? ↔ commodity = other := by
  constructor
  · intro same
    rw [← getD_written? commodity, same, getD_written?]
  · exact congrArg written?

/-- An amount that is read has no commodity rather than one without a name. -/
theorem written?_of_readAmount (read : readAmount text = .ok amount) :
    (amount.commodity.getD .bare).written? = amount.commodity := by
  obtain ⟨parts, _, _, denotes⟩ := exists_denotes_of_readAmount read
  rcases denotes.commodity_cases with ⟨_, same⟩ | ⟨_, trailing, same⟩ | ⟨_, _, same⟩
  · have named : (⟨String.ofList parts.leading, true⟩ : Commodity) ≠ .bare := by
      simp [bare]
    rw [same, Option.getD_some, written?, if_neg named]
  · have named : (⟨String.ofList parts.trailing, false⟩ : Commodity) ≠ .bare := by
      simpa [bare] using trailing
    rw [same, Option.getD_some, written?, if_neg named]
  · rw [same]
    rfl

/-- A name that is read starts with a blank exactly if a minus sign stands apart from it. -/
theorem flush_iff_not_signApart (read : readAmount text = .ok amount) :
    (amount.commodity.getD .bare).Flush ↔ ¬ Amount.SignApart (Text.trim text) := by
  obtain ⟨parts, formed, sameText, denotes⟩ := exists_denotes_of_readAmount read
  rw [← sameText, formed.signApart_iff]
  rcases denotes.commodity_cases with ⟨leading, same⟩ | ⟨leading, _, same⟩ | ⟨leading, _, same⟩
  · have starts : ∀ c ∈ parts.text.head?, Text.isBlank c = false :=
      sameText ▸ (Text.trimmed_trim text).starts
    rw [same, Option.getD_some, Flush, String.toList_ofList]
    constructor
    · rintro flush ⟨_, c, first, isBlank⟩
      have solid := flush rfl c first
      rw [isBlank] at solid
      cases solid
    · intro together _ c first
      cases signed : parts.outerSign with
      | true =>
        by_contra isBlank
        exact together ⟨signed, c, first, by simpa using isBlank⟩
      | false =>
        -- the name stands first in the text, whose own blanks are gone
        apply starts
        have unsigned : Decimal.signText false = [] := rfl
        rw [Amount.Parts.text, signed, unsigned, List.nil_append,
          List.head?_append_of_ne_nil _ leading]
        exact first
  · rw [same]
    refine iff_of_true (fun leads => ?_) (by simp [leading])
    cases leads
  · rw [same]
    refine iff_of_true (fun leads => ?_) (by simp [leading])
    cases leads

end Commodity

/-- Which amounts come back when they are read, shown and read again, for every text that is read as
an amount and every number of decimal places that is enough for it: what is shown is always read, and
with the same value; its commodity is the same if and only if the text, without the blanks at its
ends, does not start with a minus sign and a blank behind it. -/
theorem readAmount_format_readAmount (text : List Char) (amount : Amount) (places : Nat)
    (read : readAmount text = .ok amount) (exact : amount.number.HasPlaces places) :
    ∃ again, readAmount
        ((amount.commodity.getD .bare).format amount.number places).toList = .ok again ∧
      again.number.value = amount.number.value ∧
      (again.commodity = amount.commodity ↔ ¬ Amount.SignApart (Text.trim text)) := by
  obtain ⟨legible, _⟩ := Commodity.legible_of_readAmount read
  obtain ⟨again, reread, value, same⟩ :=
    Commodity.readAmount_format amount.number places legible
  refine ⟨again, reread, value.trans exact.roundedTo_value, ?_⟩
  rw [← Commodity.flush_iff_not_signApart read, ← legible.reread_eq_self_iff, same,
    ← Commodity.written?_inj, Commodity.written?_of_readAmount read]

/-- Ten coins, owed. -/
def Amount.coinsOwed : Amount := ⟨.spelled "-10", some ⟨" BTC", false⟩⟩

theorem Amount.coinsOwed_read_again :
    readAmount "-10 BTC".toList = .ok coinsOwed ∧ coinsOwed.number.HasPlaces 2 ∧
      ∃ again, readAmount "-10.00 BTC".toList = .ok again ∧ again.number.value = -10 ∧
        again.commodity = some ⟨" BTC", false⟩ := by
  have read : readAmount "-10 BTC".toList = .ok coinsOwed := by decide
  have exact : coinsOwed.number.HasPlaces 2 := ⟨-1000, by decide +kernel⟩
  have shown : (coinsOwed.commodity.getD .bare).format coinsOwed.number 2 = "-10.00 BTC" := by
    decide +kernel
  have apart : ¬ SignApart (Text.trim "-10 BTC".toList) := by
    rw [show Text.trim "-10 BTC".toList = '-' :: "10 BTC".toList by decide, signApart_cons]
    rintro ⟨_, digit, starts, isBlank⟩
    cases starts
    cases isBlank
  obtain ⟨again, reread, value, same⟩ :=
    readAmount_format_readAmount _ coinsOwed 2 read exact
  rw [shown] at reread
  refine ⟨read, exact, again, reread, ?_, same.mpr apart⟩
  rw [value]
  decide +kernel

/-- Five dollars, owed, with the sign apart. -/
def Amount.dollarsOwed : Amount := ⟨.spelled "-5", some ⟨" $", true⟩⟩

/-- A blank between the sign and the name belongs to the name when it is read, stands in front of the
amount when it is shown, and is lost when it is read again. -/
theorem Amount.dollarsOwed_not_read_again :
    readAmount "- $5".toList = .ok dollarsOwed ∧ dollarsOwed.number.HasPlaces 2 ∧
      ¬ ∃ again, readAmount ((dollarsOwed.commodity.getD .bare).format
          dollarsOwed.number 2).toList = .ok again ∧
        again.number.value = dollarsOwed.number.value ∧
        again.commodity = dollarsOwed.commodity := by
  have reread : readAmount ((dollarsOwed.commodity.getD .bare).format
      dollarsOwed.number 2).toList = .ok ⟨.spelled "-5.00", some ⟨"$", true⟩⟩ := by decide
  refine ⟨by decide, ⟨-500, by decide +kernel⟩, ?_⟩
  rintro ⟨again, read, _, same⟩
  rw [reread] at read
  rw [← Except.ok.inj read] at same
  revert same
  decide

end DoubleEntry

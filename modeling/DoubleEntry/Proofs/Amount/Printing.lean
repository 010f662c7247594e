import DoubleEntry.Balance
import DoubleEntry.Proofs.Amount.Grammar
import DoubleEntry.Proofs.Decimal.Places

/-! Amounts as they are shown, with a fixed number of decimal places, and read again. What is read is
the rounded value, or the value itself if it has no more places; the commodity loses the blanks in
front of a leading name. -/

namespace DoubleEntry

open Decimal

namespace Decimal

/-- Digits that are shown with a point are digits on both sides of it. -/
theorem digitsWithPoint_eq (magnitude : Nat) {places : Nat} (some : places ≠ 0) :
    ∃ whole fraction, digitsWithPoint magnitude places = whole ++ '.' :: fraction ∧
      whole ≠ [] ∧ (∀ c ∈ whole, c.isDigit = true) ∧ (∀ c ∈ fraction, c.isDigit = true) ∧
      fraction.length = places ∧ Nat.ofDigitChars 10 (whole ++ fraction) 0 = magnitude := by
  let zeros := places + 1 - (Nat.toDigits 10 magnitude).length
  let padded := List.replicate zeros '0' ++ Nat.toDigits 10 magnitude
  have long : places + 1 ≤ padded.length := by
    simp only [padded, zeros, List.length_append, List.length_replicate]
    omega
  have allDigits : ∀ c ∈ padded, c.isDigit = true := Text.isDigit_padded zeros magnitude
  refine ⟨padded.take (padded.length - places), padded.drop (padded.length - places), ?_, ?_, ?_,
    ?_, ?_, ?_⟩
  · simp only [digitsWithPoint, some, if_false]
    rfl
  · refine List.ne_nil_of_length_pos ?_
    rw [List.length_take]
    omega
  · exact fun c member => allDigits c (List.mem_of_mem_take member)
  · exact fun c member => allDigits c (List.mem_of_mem_drop member)
  · rw [List.length_drop]
    omega
  · rw [List.take_append_drop]
    exact Text.ofDigitChars_padded zeros magnitude

theorem digitsWithPoint_zero (magnitude : Nat) :
    digitsWithPoint magnitude 0 ≠ [] ∧ (∀ c ∈ digitsWithPoint magnitude 0, c.isDigit = true) ∧
      Nat.ofDigitChars 10 (digitsWithPoint magnitude 0) 0 = magnitude := by
  let zeros := 0 + 1 - (Nat.toDigits 10 magnitude).length
  have shown : digitsWithPoint magnitude 0 =
      List.replicate zeros '0' ++ Nat.toDigits 10 magnitude := rfl
  rw [shown]
  refine ⟨?_, Text.isDigit_padded zeros magnitude, Text.ofDigitChars_padded zeros magnitude⟩
  refine List.ne_nil_of_length_pos ?_
  simp only [zeros, List.length_append, List.length_replicate]
  omega

/-- A number of whole hundredths. -/
def IsCents (d : Decimal) : Prop := ∃ cents : Int, d.value = (cents : Rat) / 100

theorem IsCents.hasPlaces {d : Decimal} (exact : d.IsCents) : d.HasPlaces 2 := by
  obtain ⟨cents, same⟩ := exact
  refine ⟨cents, ?_⟩
  rw [same]
  norm_num

end Decimal

namespace Commodity

open Amount

/-- A name that can be read beside a number, on the side on which it stands. -/
structure Legible (commodity : Commodity) : Prop where
  leading : commodity.leading = true → commodity.name.toList ≠ [] ∧
    ∀ c ∈ commodity.name.toList, isNumeric c = false ∧ c ≠ '-'
  trailing : commodity.leading = false → (∀ c ∈ commodity.name.toList, isNumeric c = false) ∧
    ∀ c ∈ commodity.name.toList.getLast?, Text.isBlank c = false

instance (commodity : Commodity) : Decidable commodity.Legible :=
  decidable_of_iff
    ((commodity.leading = true → commodity.name.toList ≠ [] ∧
        commodity.name.toList.all (fun c => !isNumeric c && c != '-') = true) ∧
      (commodity.leading = false → commodity.name.toList.all (!isNumeric ·) = true ∧
        commodity.name.toList.getLast?.any Text.isBlank = false)) (by
      simp only [Text.any_isBlank_eq_false_iff, List.all_eq_true, Bool.and_eq_true,
        Bool.not_eq_true', bne_iff_ne]
      exact ⟨fun legible => ⟨legible.1, legible.2⟩, fun legible =>
        ⟨legible.leading, legible.trailing⟩⟩)

/-- What is read again of a commodity: blanks at the start of a line or of a column are lost. -/
def reread (commodity : Commodity) : Commodity :=
  if commodity.leading then
    match Text.trimStart commodity.name.toList with
    | [] => .bare
    | c :: rest => ⟨String.ofList (c :: rest), true⟩
  else commodity

theorem reread_cases (commodity : Commodity) :
    (commodity.leading = true ∧ Text.trimStart commodity.name.toList = [] ∧
      commodity.reread = .bare) ∨
    (commodity.leading = true ∧ commodity.reread.leading = true ∧
      commodity.reread.name.toList = Text.trimStart commodity.name.toList ∧
      Text.trimStart commodity.name.toList ≠ []) ∨
    (commodity.leading = false ∧ commodity.reread = commodity) := by
  unfold reread
  cases commodity.leading with
  | false => exact .inr (.inr ⟨rfl, rfl⟩)
  | true =>
    cases kept : Text.trimStart commodity.name.toList with
    | nil => exact .inl ⟨rfl, rfl, rfl⟩
    | cons c rest => exact .inr (.inl ⟨rfl, rfl, String.toList_ofList, by simp⟩)

theorem Legible.bare : Legible .bare where
  leading := by simp [Commodity.bare]
  trailing := by simp [Commodity.bare]

variable {commodity : Commodity}

theorem Legible.reread (legible : commodity.Legible) : commodity.reread.Legible := by
  rcases commodity.reread_cases with ⟨_, _, same⟩ | ⟨leads, leads', name, nonempty⟩ | ⟨_, same⟩
  · rw [same]
    exact .bare
  · refine ⟨fun _ => ⟨by rwa [name], fun c member => ?_⟩, by simp [leads']⟩
    rw [name] at member
    exact (legible.leading leads).2 c ((Text.trimStart_isSuffix _).subset member)
  · rwa [same]

/-- A leading name that is read again does not start with a blank. -/
theorem head?_reread (leads : commodity.reread.leading = true) :
    ∀ c ∈ commodity.reread.name.toList.head?, Text.isBlank c = false := by
  rcases commodity.reread_cases with ⟨_, _, same⟩ | ⟨_, _, name, _⟩ | ⟨trails, same⟩
  · rw [same] at leads
    cases leads
  · rw [name]
    exact Text.head?_trimStart _
  · rw [same, trails] at leads
    cases leads

/-- A name that stands in front of a number starts without a blank. -/
def Flush (commodity : Commodity) : Prop :=
  commodity.leading = true → ∀ c ∈ commodity.name.toList.head?, Text.isBlank c = false

instance (commodity : Commodity) : Decidable commodity.Flush :=
  decidable_of_iff
    (commodity.leading = true → commodity.name.toList.head?.any Text.isBlank = false) (by
      rw [Flush, Text.any_isBlank_eq_false_iff])

/-- A commodity is read again as it is if there are no blanks in front to be lost. -/
theorem Legible.reread_eq_self_iff (legible : commodity.Legible) :
    commodity.reread = commodity ↔ commodity.Flush := by
  constructor
  · intro same leads
    have starts := @head?_reread commodity (by rwa [same])
    rwa [same] at starts
  · intro flush
    rcases commodity.reread_cases with ⟨leads, nothing, _⟩ | ⟨leads, leads', name, _⟩ | ⟨_, same⟩
    · have kept := Text.trimStart_of_starts (flush leads)
      rw [nothing] at kept
      exact absurd kept.symm (legible.leading leads).1
    · rw [Text.trimStart_of_starts (flush leads), String.toList_inj] at name
      generalize commodity.reread = again at leads' name
      cases again
      cases commodity
      simp_all
    · exact same

/-- The parts of an amount as it is shown. -/
def shownParts (commodity : Commodity) (negative : Bool) (number : List Char) : Parts :=
  if commodity.leading then ⟨false, commodity.name.toList, negative, number, []⟩
  else ⟨negative, [], false, number, commodity.name.toList⟩

variable {negative : Bool} {number : List Char}

theorem shownParts_of_leading (leads : commodity.leading = true) :
    commodity.shownParts negative number =
      ⟨false, commodity.name.toList, negative, number, []⟩ := by
  rw [shownParts, if_pos leads]

theorem shownParts_of_trailing (trails : commodity.leading = false) :
    commodity.shownParts negative number =
      ⟨negative, [], false, number, commodity.name.toList⟩ := by
  rw [shownParts, if_neg (by simp [trails])]

theorem text_shownParts_of_leading (leads : commodity.leading = true) :
    (commodity.shownParts negative number).text =
      commodity.name.toList ++ (signText negative ++ number) := by
  rw [shownParts_of_leading leads, Parts.text, List.append_nil]
  rfl

theorem text_shownParts_of_trailing (trails : commodity.leading = false) :
    (commodity.shownParts negative number).text =
      signText negative ++ (number ++ commodity.name.toList) := by
  rw [shownParts_of_trailing trails]
  rfl

@[simp] theorem number_shownParts : (commodity.shownParts negative number).number = number := by
  unfold shownParts
  split <;> rfl

theorem signs_shownParts : ((commodity.shownParts negative number).outerSign ||
    (commodity.shownParts negative number).innerSign) = negative := by
  unfold shownParts
  split <;> simp

theorem wellFormed_shownParts (legible : commodity.Legible) (numeral : Numeral number)
    (fits : Fits (writtenValue number)) : (commodity.shownParts negative number).WellFormed where
  oneSign := by
    unfold shownParts
    split <;> simp
  leading c member := by
    cases leads : commodity.leading with
    | true =>
      rw [shownParts_of_leading leads] at member
      obtain ⟨other, noDash⟩ := (legible.leading leads).2 c member
      obtain ⟨noDigit, noPoint, noComma⟩ := (isNumeric_eq_false_iff c).mp other
      exact ⟨noDigit, noPoint, noComma, noDash⟩
    | false =>
      rw [shownParts_of_trailing leads] at member
      cases member
  trailing c member := by
    cases leads : commodity.leading with
    | true =>
      rw [shownParts_of_leading leads] at member
      cases member
    | false =>
      rw [shownParts_of_trailing leads] at member
      exact (isNumeric_eq_false_iff c).mp ((legible.trailing leads).1 c member)
  oneSymbol := by
    unfold shownParts
    split
    · exact .inr rfl
    · exact .inl rfl
  characters c member := by
    rw [number_shownParts] at member
    rcases numeral.characters c member with digit | point
    · exact .inl digit
    · exact .inr (.inr point)
  onePoint := by
    rw [number_shownParts]
    exact numeral.onePoint
  someDigit := by
    rw [number_shownParts]
    exact numeral.someDigit
  fits := by rwa [number_shownParts]

/-- What is read of a name beside a number: nothing where there is no name. -/
def written? (commodity : Commodity) : Option Commodity :=
  if commodity = .bare then none else some commodity

@[simp] theorem getD_written? (commodity : Commodity) :
    commodity.written?.getD .bare = commodity := by
  unfold written?
  split
  · rename_i bare
    exact bare.symm
  · rfl

theorem commodity_of_denotes {amount : Amount} (legible : commodity.Legible)
    (denotes : (commodity.shownParts negative number).Denotes amount) :
    amount.commodity = commodity.written? := by
  obtain ⟨name, side⟩ := commodity
  cases side with
  | true =>
    have other : (⟨name, true⟩ : Commodity) ≠ .bare := by simp [Commodity.bare]
    rw [denotes.leading (legible.leading rfl).1, written?, if_neg other]
    exact congrArg (fun name => some (Commodity.mk name true)) String.ofList_toList
  | false =>
    by_cases nothing : name.toList = []
    · have bare : (⟨name, false⟩ : Commodity) = .bare :=
        congrArg (Commodity.mk · false) (String.toList_eq_nil_iff.mp nothing)
      rw [denotes.bare rfl nothing, written?, if_pos bare]
    · have other : (⟨name, false⟩ : Commodity) ≠ .bare := by
        intro bare
        have unnamed : name = "" := congrArg Commodity.name bare
        exact nothing (unnamed ▸ rfl)
      rw [denotes.trailing nothing, written?, if_neg other]
      exact congrArg (fun name => some (Commodity.mk name false)) String.ofList_toList

/-- The number that is shown, without its sign. -/
def shownDigits (number : Decimal) (places : Nat) : List Char :=
  digitsWithPoint (number.magnitudeAt places) places

variable (number : Decimal) (places : Nat)

theorem numeral_shownDigits : Numeral (shownDigits number places) := by
  by_cases none : places = 0
  · subst none
    obtain ⟨nonempty, digits, _⟩ := digitsWithPoint_zero (number.magnitudeAt 0)
    exact .of_digits digits nonempty
  · obtain ⟨whole, fraction, shown, nonempty, wholeDigits, digits, _⟩ :=
      digitsWithPoint_eq (number.magnitudeAt places) none
    rw [shownDigits, shown]
    exact .of_point wholeDigits digits (by simp [nonempty])

theorem writtenValue_shownDigits : writtenValue (shownDigits number places) =
    (number.magnitudeAt places : Rat) / 10 ^ places := by
  by_cases none : places = 0
  · subst none
    obtain ⟨_, digits, value⟩ := digitsWithPoint_zero (number.magnitudeAt 0)
    rw [shownDigits, writtenValue_of_digits digits, value, pow_zero, div_one]
  · obtain ⟨whole, fraction, shown, _, wholeDigits, digits, length, value⟩ :=
      digitsWithPoint_eq (number.magnitudeAt places) none
    rw [shownDigits, shown, writtenValue_of_point wholeDigits digits, length, value]

/-- What is shown can be read: either digits were dropped, or zeros were added that do not count. -/
theorem fits_shownDigits : Fits (writtenValue (shownDigits number places)) := by
  rw [writtenValue_shownDigits, magnitudeAt]
  split
  case isTrue coarse =>
    refine ⟨number.magnitude, number.scale, number.magnitude_lt, number.scale_le, ?_⟩
    obtain ⟨extra, sum⟩ := Nat.exists_eq_add_of_le coarse
    rw [sum, Nat.add_sub_cancel_left, pow_add, Nat.pow_eq]
    push_cast
    field_simp
  case isFalse fine =>
    have scaleLe := number.scale_le
    refine ⟨_, places, ?_, by omega, rfl⟩
    exact (roundHalfAway_le ..).trans_lt number.magnitude_lt

theorem shownDigits_ne_nil : shownDigits number places ≠ [] := by
  obtain ⟨c, member, _⟩ := (numeral_shownDigits number places).someDigit
  exact List.ne_nil_of_mem member

theorem trimmed_shownDigits : Text.Trimmed (shownDigits number places) := by
  refine Text.trimmed_of_solid fun c member => ?_
  rcases (numeral_shownDigits number places).characters c member with digit | rfl
  · exact Text.not_isBlank_of_isDigit digit
  · decide

variable {number places}

theorem trimmed_signText_append {text : List Char} (trimmed : Text.Trimmed text)
    (negative : Bool) : Text.Trimmed (signText negative ++ text) := by
  refine .append ?_ (fun _ => trimmed.starts) trimmed.ends (fun _ => ?_) <;>
    cases negative <;> simp [signText, Text.isBlank]

/-- The parts of a shown amount have no blanks around them once a leading name has none in front. -/
theorem trimmed_shownParts (legible : commodity.Legible) (flush : commodity.Flush) :
    Text.Trimmed (commodity.shownParts negative (shownDigits number places)).text := by
  have digits := trimmed_shownDigits number places
  have nonempty := shownDigits_ne_nil number places
  cases leads : commodity.leading with
  | true =>
    have signed := trimmed_signText_append digits negative
    rw [text_shownParts_of_leading leads]
    refine .append (flush leads) (fun _ => signed.starts) signed.ends fun nothing => ?_
    exact absurd (List.append_eq_nil_iff.mp nothing).2 nonempty
  | false =>
    rw [text_shownParts_of_trailing leads]
    refine trimmed_signText_append ?_ negative
    exact .append digits.starts (fun nothing => absurd nothing nonempty)
      (legible.trailing leads).2 (fun _ => digits.ends)

theorem toList_format (commodity : Commodity) (number : Decimal) (places : Nat) :
    (commodity.format number places).toList =
      if commodity.leading then commodity.name.toList ++ number.fixedText places
      else number.fixedText places ++ commodity.name.toList := by
  rw [format]
  split <;> rw [String.toList_append, String.toList_ofList]

/-- Without blanks in front a shown amount is written in the parts of the commodity that is read
again. -/
theorem trimStart_format (legible : commodity.Legible) :
    Text.trimStart (commodity.format number places).toList =
      (commodity.reread.shownParts (number.showsSign places) (shownDigits number places)).text := by
  have trimmed : Text.Trimmed
      (commodity.reread.shownParts (number.showsSign places) (shownDigits number places)).text :=
    trimmed_shownParts legible.reread head?_reread
  have signed := trimmed_signText_append (trimmed_shownDigits number places)
    (number.showsSign places)
  have shown : number.fixedText places =
      signText (number.showsSign places) ++ shownDigits number places := fixedText_eq number places
  rw [toList_format, shown]
  rcases commodity.reread_cases with
    ⟨leads, nothing, same⟩ | ⟨leads, leads', name, nonempty⟩ | ⟨trails, same⟩
  · rw [if_pos leads, Text.trimStart_append signed.starts, nothing, same,
      text_shownParts_of_trailing rfl]
    simp [Commodity.bare]
  · rw [if_pos leads, Text.trimStart_append signed.starts, text_shownParts_of_leading leads', name]
  · rw [same] at trimmed ⊢
    rw [text_shownParts_of_trailing trails] at trimmed ⊢
    rw [if_neg (by simp [trails]), List.append_assoc]
    exact Text.trimStart_of_starts trimmed.starts

theorem trim_format (legible : commodity.Legible) :
    Text.trim (commodity.format number places).toList =
      (commodity.reread.shownParts (number.showsSign places) (shownDigits number places)).text := by
  rw [Text.trim, trimStart_format legible,
    Text.trimEnd_of_trimmed (trimmed_shownParts legible.reread head?_reread)]

theorem text_shownParts_ne_nil :
    (commodity.shownParts negative (shownDigits number places)).text ≠ [] := by
  have nonempty := shownDigits_ne_nil number places
  cases leads : commodity.leading with
  | true => simp [text_shownParts_of_leading leads, nonempty]
  | false => simp [text_shownParts_of_trailing leads, nonempty]

theorem trim_format_ne_nil (number : Decimal) (places : Nat) (legible : commodity.Legible) :
    Text.trim (commodity.format number places).toList ≠ [] := by
  rw [trim_format legible]
  exact text_shownParts_ne_nil

theorem toList_format_ne_nil (number : Decimal) (places : Nat) (legible : commodity.Legible) :
    (commodity.format number places).toList ≠ [] := by
  intro nothing
  apply trim_format_ne_nil number places legible
  rw [nothing]
  rfl

theorem ends_format (number : Decimal) (places : Nat) (legible : commodity.Legible) :
    ∀ c ∈ (commodity.format number places).toList.getLast?, Text.isBlank c = false := by
  have whole := List.takeWhile_append_dropWhile (p := Text.isBlank)
    (l := (commodity.format number places).toList)
  change _ ++ Text.trimStart _ = _ at whole
  rw [trimStart_format legible] at whole
  rw [← whole, List.getLast?_append_of_ne_nil _ text_shownParts_ne_nil]
  exact (trimmed_shownParts legible.reread head?_reread).ends

/-- An amount is read as it is shown, rounded to the places that are shown. Its commodity is the one
that is shown, but for blanks in front. -/
theorem readAmount_format (number : Decimal) (places : Nat) (legible : commodity.Legible) :
    ∃ amount, readAmount (commodity.format number places).toList = .ok amount ∧
      amount.number.value = roundedTo number.value places ∧
      amount.commodity = commodity.reread.written? := by
  have formed : (commodity.reread.shownParts (number.showsSign places)
      (shownDigits number places)).WellFormed :=
    wellFormed_shownParts legible.reread (numeral_shownDigits number places)
      (fits_shownDigits number places)
  obtain ⟨accepted, denoted⟩ :=
    Parts.ofTrimmed_iff_wellFormed (Text.trim (commodity.format number places).toList)
  obtain ⟨amount, read⟩ := accepted.mpr ⟨_, formed, (trim_format legible).symm⟩
  have denotes := denoted amount read _ formed (trim_format legible).symm
  refine ⟨amount, readAmount_eq_ok_iff.mpr read, ?_, commodity_of_denotes legible.reread denotes⟩
  rw [denotes.value, signs_shownParts, number_shownParts, writtenValue_shownDigits,
    roundedTo_value]

/-- What is read as an amount has a commodity that can be read beside a number, and its name stands
in the text. -/
theorem legible_of_readAmount {text : List Char} {amount : Amount}
    (read : readAmount text = .ok amount) :
    (amount.commodity.getD .bare).Legible ∧
      (amount.commodity.getD .bare).name.toList.Sublist text := by
  obtain ⟨parts, formed, sameText, denotes⟩ := exists_denotes_of_readAmount read
  have inside : parts.text.Sublist text := sameText ▸ Text.trim_sublist text
  rcases denotes.commodity_cases with ⟨leading, same⟩ | ⟨_, trailing, same⟩ | ⟨_, _, same⟩
  · rw [same, Option.getD_some]
    refine ⟨⟨fun _ => ⟨by rwa [String.toList_ofList], fun c member => ?_⟩, by simp⟩, ?_⟩
    · rw [String.toList_ofList] at member
      obtain ⟨noDigit, noPoint, noComma, noDash⟩ := formed.leading c member
      exact ⟨(isNumeric_eq_false_iff c).mpr ⟨noDigit, noPoint, noComma⟩, noDash⟩
    · rw [String.toList_ofList]
      refine List.Sublist.trans ?_ inside
      rw [Parts.text]
      exact (List.sublist_append_left ..).trans (List.sublist_append_right ..)
  · rw [same, Option.getD_some]
    have ends := (Text.trimmed_trim text).ends
    rw [← sameText, Parts.text, List.getLast?_append_of_ne_nil _ (by simp [trailing]),
      List.getLast?_append_of_ne_nil _ (by simp [trailing]),
      List.getLast?_append_of_ne_nil _ (by simp [trailing]),
      List.getLast?_append_of_ne_nil _ trailing] at ends
    refine ⟨⟨by simp, fun _ => ⟨fun c member => ?_, ?_⟩⟩, ?_⟩
    · rw [String.toList_ofList] at member
      exact (isNumeric_eq_false_iff c).mpr (formed.trailing c member)
    · rwa [String.toList_ofList]
    · rw [String.toList_ofList]
      refine List.Sublist.trans ?_ inside
      simp only [Parts.text, ← List.append_assoc]
      exact List.sublist_append_right ..
  · rw [same]
    exact ⟨.bare, List.nil_sublist _⟩

end Commodity

end DoubleEntry

import DoubleEntry.Proofs.Amount.Numeral
import DoubleEntry.Proofs.Text.Trimming
import DoubleEntry.Record

/-! What an amount may look like: a number with a symbol on one side and at most one minus sign, in
front of the number or of the symbol. A text is read as an amount exactly if it is so written and
some decimal has the value, and then that is the amount that is read. -/

namespace DoubleEntry

namespace Amount

open Decimal

namespace Parts

def text (parts : Parts) : List Char :=
  signText parts.outerSign ++ (parts.leading ++
    (signText parts.innerSign ++ (parts.number ++ parts.trailing)))

/-- An amount as it may be written. -/
structure WellFormed (parts : Parts) : Prop where
  oneSign : ¬ (parts.outerSign = true ∧ parts.innerSign = true)
  leading : ∀ c ∈ parts.leading,
    Text.isDecimalDigit c = false ∧ c ≠ '.' ∧ c ≠ ',' ∧ c ≠ '-'
  trailing : ∀ c ∈ parts.trailing, Text.isDecimalDigit c = false ∧ c ≠ '.' ∧ c ≠ ','
  oneSymbol : parts.leading = [] ∨ parts.trailing = []
  characters : ∀ c ∈ parts.number, c.isDigit = true ∨ c = ',' ∨ c = '.'
  onePoint : parts.number.count '.' ≤ 1
  someDigit : ∃ c ∈ parts.number, c.isDigit = true
  fits : Fits (writtenValue parts.number)

/-- What the parts say: the value that is written, negative if there is a sign, in the commodity on
the side where its symbol stands. -/
structure Denotes (parts : Parts) (amount : Amount) : Prop where
  value : amount.number.value =
    if parts.outerSign || parts.innerSign then -writtenValue parts.number
    else writtenValue parts.number
  negative : amount.number.negative = (parts.outerSign || parts.innerSign)
  leading : parts.leading ≠ [] → amount.commodity = some ⟨String.ofList parts.leading, true⟩
  trailing : parts.trailing ≠ [] → amount.commodity = some ⟨String.ofList parts.trailing, false⟩
  bare : parts.leading = [] → parts.trailing = [] → amount.commodity = none

/-- Parts as they are cut from a text. A sign that nothing stands in front of is the outer one. -/
structure Cut (parts : Parts) : Prop where
  leading : ∀ c ∈ parts.leading, isNumeric c = false ∧ c ≠ '-'
  nonempty : parts.number ≠ []
  number : ∀ c ∈ parts.number, isNumeric c = true
  trailing : ∀ c ∈ parts.trailing, isNumeric c = false
  sign : parts.outerSign = false → parts.leading = [] → parts.innerSign = false

end Parts

theorem isNumeric_eq_false_iff (c : Char) :
    isNumeric c = false ↔ Text.isDecimalDigit c = false ∧ c ≠ '.' ∧ c ≠ ',' := by
  simp [isNumeric, and_assoc]

theorem not_isNumeric_dash : isNumeric '-' = false := by decide

theorem isNumeric_ne_dash {c : Char} (numeric : isNumeric c = true) : c ≠ '-' := by
  rintro rfl
  exact absurd numeric (by rw [not_isNumeric_dash]; exact Bool.false_ne_true)

theorem takeSign_append {negative : Bool} {rest : List Char}
    (other : negative = false → ∀ c ∈ rest.head?, c ≠ '-') :
    takeSign (signText negative ++ rest) = (negative, rest) := by
  cases negative with
  | true => rfl
  | false =>
    cases rest with
    | nil => rfl
    | cons c rest => simp [signText, takeSign, other rfl c rfl]

theorem takeSign_cases (text : List Char) :
    signText (takeSign text).1 ++ (takeSign text).2 = text ∧
      ((takeSign text).1 = false → ∀ c ∈ (takeSign text).2.head?, c ≠ '-') := by
  unfold takeSign
  split
  case h_1 => exact ⟨rfl, fun signed => nomatch signed⟩
  case h_2 other =>
    refine ⟨rfl, fun _ c starts => ?_⟩
    rintro rfl
    cases text with
    | nil => cases starts
    | cons c rest => exact other rest (by rw [Option.some.inj starts])

namespace Parts

variable {parts : Parts} {text : List Char}

theorem ofText?_text (cut : parts.Cut) : ofText? parts.text = some parts := by
  have numberStarts : ∀ c ∈ (parts.number ++ parts.trailing).head?, isNumeric c = true := by
    intro c starts
    rw [List.head?_append_of_ne_nil _ cut.nonempty] at starts
    exact cut.number c (List.mem_of_mem_head? starts)
  have inner : takeSign (signText parts.innerSign ++ (parts.number ++ parts.trailing)) =
      (parts.innerSign, parts.number ++ parts.trailing) :=
    takeSign_append fun _ c starts => isNumeric_ne_dash (numberStarts c starts)
  have outer : takeSign parts.text = (parts.outerSign, parts.leading ++
      (signText parts.innerSign ++ (parts.number ++ parts.trailing))) := by
    refine takeSign_append fun unsigned c starts => ?_
    cases leading : parts.leading with
    | nil =>
      rw [leading, cut.sign unsigned leading] at starts
      exact isNumeric_ne_dash (numberStarts c starts)
    | cons first rest =>
      rw [leading] at starts
      rw [← Option.some.inj starts]
      exact (cut.leading first (by simp [leading])).2
  have inside : ∀ c ∈ parts.leading, (!isNumeric c && c != '-') = true := by
    intro c member
    simp [cut.leading c member]
  have stops : ∀ c ∈ (signText parts.innerSign ++ (parts.number ++ parts.trailing)).head?,
      (!isNumeric c && c != '-') = false := by
    intro c starts
    cases signed : parts.innerSign with
    | true =>
      rw [signed] at starts
      rw [← Option.some.inj starts]
      rfl
    | false =>
      rw [signed] at starts
      rw [numberStarts c starts]
      rfl
  have trailingStops : ∀ c ∈ parts.trailing.head?, isNumeric c = false :=
    fun c starts => cut.trailing c (List.mem_of_mem_head? starts)
  have accepted : (parts.number.isEmpty || parts.trailing.any isNumeric) = false := by
    rw [Bool.or_eq_false_iff, List.isEmpty_eq_false_iff, List.any_eq_false]
    exact ⟨cut.nonempty, fun c member => by simp [cut.trailing c member]⟩
  simp only [ofText?, outer, Text.takeWhile_append_of_stop inside stops,
    Text.dropWhile_append_of_stop inside stops, inner,
    Text.takeWhile_append_of_stop cut.number trailingStops,
    Text.dropWhile_append_of_stop cut.number trailingStops, accepted]
  rfl

theorem cut_of_ofText? (made : ofText? text = some parts) : parts.Cut ∧ parts.text = text := by
  obtain ⟨outerText, outerFirst⟩ := takeSign_cases text
  simp only [ofText?] at made
  generalize takeSign text = outer at *
  obtain ⟨innerText, innerFirst⟩ :=
    takeSign_cases (outer.2.dropWhile fun c => !isNumeric c && c != '-')
  generalize takeSign (outer.2.dropWhile fun c => !isNumeric c && c != '-') = inner at *
  split at made
  · cases made
  case isFalse accepted =>
    rw [Bool.not_eq_true, Bool.or_eq_false_iff, List.isEmpty_eq_false_iff,
      List.any_eq_false] at accepted
    cases made
    refine ⟨⟨?_, accepted.1, ?_, ?_, ?_⟩, ?_⟩
    · intro c member
      simpa using List.mem_takeWhile_imp member
    · intro c member
      exact List.mem_takeWhile_imp member
    · intro c member
      simpa using accepted.2 c member
    · -- with nothing in front of it, an inner sign would have been taken as the outer one
      intro unsigned leading
      have whole := List.takeWhile_append_dropWhile (p := fun c => !isNumeric c && c != '-')
        (l := outer.2)
      dsimp only at unsigned leading ⊢
      rw [leading, List.nil_append, ← innerText] at whole
      cases signed : inner.1 with
      | false => rfl
      | true =>
        rw [signed] at whole
        exact absurd rfl (outerFirst unsigned '-' (by rw [← whole]; rfl))
    · change signText outer.1 ++ (outer.2.takeWhile _ ++ (signText inner.1 ++
        (inner.2.takeWhile isNumeric ++ inner.2.dropWhile isNumeric))) = text
      rw [List.takeWhile_append_dropWhile, innerText, List.takeWhile_append_dropWhile, outerText]

/-- The same parts, with a sign that nothing stands in front of as the outer one. -/
def settled (parts : Parts) : Parts :=
  if parts.leading.isEmpty && !parts.outerSign then
    { parts with outerSign := parts.innerSign, innerSign := false }
  else parts

theorem settled_cases (parts : Parts) :
    parts.settled = parts ∧ (parts.outerSign = false → parts.leading ≠ []) ∨
      parts.leading = [] ∧ parts.outerSign = false ∧
        parts.settled = { parts with outerSign := parts.innerSign, innerSign := false } := by
  unfold settled
  split
  case isTrue moved =>
    rw [Bool.and_eq_true, List.isEmpty_iff, Bool.not_eq_true'] at moved
    exact .inr ⟨moved.1, moved.2, rfl⟩
  case isFalse kept =>
    rw [Bool.and_eq_true, List.isEmpty_iff, Bool.not_eq_true'] at kept
    exact .inl ⟨rfl, fun unsigned leading => kept ⟨leading, unsigned⟩⟩

theorem text_settled (parts : Parts) : parts.settled.text = parts.text := by
  rcases settled_cases parts with ⟨same, _⟩ | ⟨leading, unsigned, same⟩
  · rw [same]
  · simp [same, text, leading, unsigned, signText]

theorem WellFormed.settled (formed : parts.WellFormed) : parts.settled.WellFormed := by
  rcases settled_cases parts with ⟨same, _⟩ | ⟨_, _, same⟩
  · rwa [same]
  · rw [same]
    exact { formed with oneSign := fun signs => nomatch signs.2 }

theorem denotes_settled {amount : Amount} (denotes : parts.settled.Denotes amount) :
    parts.Denotes amount := by
  rcases settled_cases parts with ⟨same, _⟩ | ⟨_, unsigned, same⟩
  · rwa [same] at denotes
  · have signs : (parts.settled.outerSign || parts.settled.innerSign) =
        (parts.outerSign || parts.innerSign) := by
      rw [same, unsigned, Bool.or_false, Bool.false_or]
    obtain ⟨value, negative, leading, trailing, bare⟩ := denotes
    rw [signs] at value negative
    rw [same] at value leading trailing bare
    exact ⟨value, negative, leading, trailing, bare⟩

/-- The commodity stands in front of the number, behind it or nowhere. -/
theorem Denotes.commodity_cases {amount : Amount} (denotes : parts.Denotes amount) :
    (parts.leading ≠ [] ∧ amount.commodity = some ⟨String.ofList parts.leading, true⟩) ∨
    (parts.leading = [] ∧ parts.trailing ≠ [] ∧
      amount.commodity = some ⟨String.ofList parts.trailing, false⟩) ∨
    (parts.leading = [] ∧ parts.trailing = [] ∧ amount.commodity = none) := by
  by_cases leading : parts.leading = []
  · by_cases trailing : parts.trailing = []
    · exact .inr (.inr ⟨leading, trailing, denotes.bare leading trailing⟩)
    · exact .inr (.inl ⟨leading, trailing, denotes.trailing trailing⟩)
  · exact .inl ⟨leading, denotes.leading leading⟩

theorem WellFormed.isNumeric_of_mem (formed : parts.WellFormed) {c : Char}
    (member : c ∈ parts.number) : isNumeric c = true := by
  rcases formed.characters c member with digit | rfl | rfl
  · simp [isNumeric, Text.isDecimalDigit_of_isDigit digit]
  · rfl
  · rfl

theorem WellFormed.cut_settled (formed : parts.WellFormed) : parts.settled.Cut where
  leading c member := by
    obtain ⟨noDigit, noPoint, noComma, noDash⟩ := formed.settled.leading c member
    exact ⟨(isNumeric_eq_false_iff c).mpr ⟨noDigit, noPoint, noComma⟩, noDash⟩
  nonempty := by
    obtain ⟨c, member, _⟩ := formed.settled.someDigit
    exact List.ne_nil_of_mem member
  number _ member := formed.settled.isNumeric_of_mem member
  trailing c member := (isNumeric_eq_false_iff c).mpr (formed.settled.trailing c member)
  sign unsigned leading := by
    rcases settled_cases parts with ⟨same, kept⟩ | ⟨_, _, same⟩
    · rw [same] at unsigned leading
      exact absurd leading (kept unsigned)
    · rw [same]

end Parts

/-! Commas do not count. -/

def withoutCommas (number : List Char) : List Char := number.filter (· != ',')

theorem isDigit_withoutCommas (number : List Char) :
    (withoutCommas number).filter Char.isDigit = number.filter Char.isDigit := by
  rw [withoutCommas, List.filter_filter]
  refine List.filter_congr fun c _ => ?_
  cases digit : c.isDigit with
  | false => rfl
  | true =>
    have other : c ≠ ',' := by
      rintro rfl
      exact absurd digit (by decide)
    simp [other]

theorem dropWhile_withoutCommas (number : List Char) :
    (withoutCommas number).dropWhile (· != '.') =
      withoutCommas (number.dropWhile (· != '.')) := by
  induction number with
  | nil => rfl
  | cons c rest ih =>
    by_cases comma : c = ','
    · subst comma
      exact ih
    · have kept : withoutCommas (c :: rest) = c :: withoutCommas rest := by
        simp [withoutCommas, comma]
      by_cases point : c = '.'
      · rw [kept, List.dropWhile_cons_of_neg (by simp [point]),
          List.dropWhile_cons_of_neg (by simp [point]), kept]
      · rw [kept, List.dropWhile_cons_of_pos (by simp [point]), ih,
          List.dropWhile_cons_of_pos (by simp [point])]

theorem writtenValue_withoutCommas (number : List Char) :
    writtenValue (withoutCommas number) = writtenValue number := by
  rw [writtenValue, writtenValue, digitsValue, digitsValue, fractionDigits, fractionDigits,
    dropWhile_withoutCommas, isDigit_withoutCommas, isDigit_withoutCommas]

theorem count_withoutCommas (number : List Char) :
    (withoutCommas number).count '.' = number.count '.' :=
  List.count_filter (by decide)

namespace Parts

variable {parts : Parts} {text : List Char} {amount : Amount}

theorem WellFormed.numeral (formed : parts.WellFormed) :
    Numeral (withoutCommas parts.number) where
  characters c member := by
    obtain ⟨inside, other⟩ := List.mem_filter.mp member
    rcases formed.characters c inside with digit | comma | point
    · exact .inl digit
    · exact absurd comma (by simpa using other)
    · exact .inr point
  onePoint := (count_withoutCommas parts.number).trans_le formed.onePoint
  someDigit := by
    obtain ⟨c, member, digit⟩ := formed.someDigit
    have other : c ≠ ',' := by
      rintro rfl
      exact absurd digit (by decide)
    exact ⟨c, List.mem_filter.mpr ⟨member, by simpa using other⟩, digit⟩

/-- What a number with its sign is read as. -/
def signed (parts : Parts) (magnitude : Decimal) : Decimal :=
  if parts.outerSign || parts.innerSign then -magnitude else magnitude

theorem denotes_signed {magnitude : Decimal} (formed : parts.WellFormed)
    (read : readNumber? (withoutCommas parts.number) = some magnitude) :
    parts.Denotes ⟨parts.signed magnitude, parts.commodity⟩ := by
  obtain ⟨value, positive⟩ := value_of_readNumber? formed.numeral read
  rw [writtenValue_withoutCommas] at value
  refine ⟨?_, ?_, ?_, ?_, ?_⟩
  · rw [← value, signed]
    split
    · exact value_neg magnitude
    · rfl
  · dsimp only [signed]
    cases parts.outerSign || parts.innerSign with
    | true =>
      change (!magnitude.negative) = true
      rw [positive]
      rfl
    | false => exact positive
  · intro leading
    simp [commodity, leading]
  · intro trailing
    have leading : parts.leading = [] := formed.oneSymbol.resolve_right trailing
    simp [commodity, leading, trailing]
  · intro leading trailing
    simp [commodity, leading, trailing]

/-- Well-formed parts are read as what they say. -/
theorem ofTrimmed_text (cut : parts.Cut) (formed : parts.WellFormed) :
    ∃ amount, ofTrimmed parts.text = .ok amount ∧ parts.Denotes amount := by
  have numeral := formed.numeral
  obtain ⟨magnitude, read⟩ : ∃ magnitude,
      readNumber? (withoutCommas parts.number) = some magnitude := by
    refine Option.isSome_iff_exists.mp ((readNumber?_isSome_iff numeral).mpr ?_)
    rw [writtenValue_withoutCommas]
    exact formed.fits
  refine ⟨⟨parts.signed magnitude, parts.commodity⟩, ?_, denotes_signed formed read⟩
  have oneSign : (parts.outerSign && parts.innerSign) = false := by
    simpa using formed.oneSign
  have oneSymbol : (!parts.leading.isEmpty && !parts.trailing.isEmpty) = false := by
    rcases formed.oneSymbol with none | none <;> simp [none]
  have aNumber : (decide (1 < (withoutCommas parts.number).count '.') ||
      !(withoutCommas parts.number).any Char.isDigit) = false := by
    have some : (withoutCommas parts.number).any Char.isDigit = true :=
      List.any_eq_true.mpr numeral.someDigit
    simpa [some] using numeral.onePoint
  rw [withoutCommas] at read aNumber
  simp only [ofTrimmed, ofText?_text cut, oneSign, oneSymbol, aNumber, read]
  rfl

/-- What is read has been cut into parts that pass every check. -/
theorem ofTrimmed_ok (read : ofTrimmed text = .ok amount) :
    ∃ parts : Parts, parts.Cut ∧ parts.text = text ∧
      ¬ (parts.outerSign = true ∧ parts.innerSign = true) ∧
      (parts.leading = [] ∨ parts.trailing = []) ∧ Numeral (withoutCommas parts.number) ∧
      (readNumber? (withoutCommas parts.number)).isSome := by
  unfold ofTrimmed at read
  split at read
  case h_1 => cases read
  case h_2 parts made =>
    obtain ⟨cut, sameText⟩ := cut_of_ofText? made
    split at read
    · cases read
    case isFalse oneSign =>
      split at read
      · cases read
      case isFalse oneSymbol =>
        dsimp only at read
        split at read
        · cases read
        case isFalse aNumber =>
          split at read
          · cases read
          case h_2 magnitude number =>
            rw [Bool.and_eq_true] at oneSign
            simp only [Bool.and_eq_true, Bool.not_eq_true', List.isEmpty_eq_false_iff,
              not_and_or, not_not] at oneSymbol
            simp only [Bool.or_eq_true, decide_eq_true_eq, Bool.not_eq_true',
              List.any_eq_false, not_or, not_lt, not_forall, not_not] at aNumber
            obtain ⟨onePoint, c, member, digit⟩ := aNumber
            have numeral : Numeral (withoutCommas parts.number) :=
              ⟨characters_of_readNumber? number, onePoint, c, member, digit⟩
            exact ⟨parts, cut, sameText, oneSign, oneSymbol, numeral,
              Option.isSome_iff_exists.mpr ⟨magnitude, number⟩⟩

theorem Cut.wellFormed (cut : parts.Cut)
    (oneSign : ¬ (parts.outerSign = true ∧ parts.innerSign = true))
    (oneSymbol : parts.leading = [] ∨ parts.trailing = [])
    (numeral : Numeral (withoutCommas parts.number))
    (read : (readNumber? (withoutCommas parts.number)).isSome) : parts.WellFormed where
  oneSign
  leading c member := by
    obtain ⟨other, noDash⟩ := cut.leading c member
    obtain ⟨noDigit, noPoint, noComma⟩ := (isNumeric_eq_false_iff c).mp other
    exact ⟨noDigit, noPoint, noComma, noDash⟩
  trailing c member := (isNumeric_eq_false_iff c).mp (cut.trailing c member)
  oneSymbol
  characters c member := by
    by_cases comma : c = ','
    · exact .inr (.inl comma)
    · have kept : c ∈ withoutCommas parts.number :=
        List.mem_filter.mpr ⟨member, by simpa using comma⟩
      rcases numeral.characters c kept with digit | point
      · exact .inl digit
      · exact .inr (.inr point)
  onePoint := (count_withoutCommas parts.number).symm.trans_le numeral.onePoint
  someDigit := by
    obtain ⟨c, member, digit⟩ := numeral.someDigit
    exact ⟨c, (List.mem_filter.mp member).1, digit⟩
  fits := by
    rw [← writtenValue_withoutCommas]
    exact (readNumber?_isSome_iff numeral).mp read

theorem wellFormed_of_ofTrimmed (read : ofTrimmed text = .ok amount) :
    ∃ parts : Parts, parts.WellFormed ∧ parts.text = text := by
  obtain ⟨parts, cut, sameText, oneSign, oneSymbol, numeral, number⟩ := ofTrimmed_ok read
  exact ⟨parts, cut.wellFormed oneSign oneSymbol numeral number, sameText⟩

/-- A text without blanks at its ends is read if and only if it is written in well-formed parts, and
whatever well-formed parts it is written in say what is read. -/
theorem ofTrimmed_iff_wellFormed (text : List Char) :
    ((∃ amount, ofTrimmed text = .ok amount) ↔
        ∃ parts : Parts, parts.WellFormed ∧ parts.text = text) ∧
      ∀ amount, ofTrimmed text = .ok amount →
        ∀ parts : Parts, parts.WellFormed → parts.text = text → parts.Denotes amount := by
  have reads {parts : Parts} (formed : parts.WellFormed) (sameText : parts.text = text) :
      ∃ amount, ofTrimmed text = .ok amount ∧ parts.Denotes amount := by
    obtain ⟨amount, read, denotes⟩ := ofTrimmed_text formed.cut_settled formed.settled
    rw [text_settled, sameText] at read
    exact ⟨amount, read, denotes_settled denotes⟩
  refine ⟨⟨fun ⟨amount, read⟩ => wellFormed_of_ofTrimmed read, ?_⟩, ?_⟩
  · rintro ⟨parts, formed, sameText⟩
    obtain ⟨amount, read, _⟩ := reads formed sameText
    exact ⟨amount, read⟩
  · intro amount read parts formed sameText
    obtain ⟨other, read', denotes⟩ := reads formed sameText
    rw [read] at read'
    rwa [Except.ok.inj read']

end Parts

end Amount

theorem readAmount_eq_ok_iff {text : List Char} {amount : Amount} :
    readAmount text = .ok amount ↔ Amount.ofTrimmed (Text.trim text) = .ok amount := by
  rw [readAmount, Amount.ofText]
  cases Amount.ofTrimmed (Text.trim text) <;> simp [Except.mapError]

theorem exists_denotes_of_readAmount {text : List Char} {amount : Amount}
    (read : readAmount text = .ok amount) :
    ∃ parts : Amount.Parts, parts.WellFormed ∧ parts.text = Text.trim text ∧
      parts.Denotes amount := by
  have trimmed := readAmount_eq_ok_iff.mp read
  obtain ⟨parts, formed, sameText⟩ := Amount.Parts.wellFormed_of_ofTrimmed trimmed
  exact ⟨parts, formed, sameText,
    (Amount.Parts.ofTrimmed_iff_wellFormed _).2 amount trimmed parts formed sameText⟩

theorem readAmount_trim (text : List Char) : readAmount (Text.trim text) = readAmount text := by
  rw [readAmount, readAmount, Amount.ofText, Amount.ofText, Text.trim_trim]

/-- Which texts are amounts, and of what. For every text: it is read as an amount if and only if,
without the blanks at its ends, it is written in well-formed parts; what is read then has exactly the
value that is written, its sign and its commodity, for any parts in which it is so written; every
other text is a malformed amount, named without the blanks at its ends, which do not matter. -/
theorem readAmount_ok_iff_wellFormed (text : List Char) :
    ((∃ amount, readAmount text = .ok amount) ↔
        ∃ parts : Amount.Parts, parts.WellFormed ∧ parts.text = Text.trim text) ∧
      (∀ amount, readAmount text = .ok amount → ∀ parts : Amount.Parts, parts.WellFormed →
        parts.text = Text.trim text → parts.Denotes amount) ∧
      (∀ fault, readAmount text = .error fault →
        ∃ reason, fault = .malformedAmount (String.ofList (Text.trim text)) reason) ∧
      readAmount (Text.trim text) = readAmount text := by
  obtain ⟨accepted, denoted⟩ := Amount.Parts.ofTrimmed_iff_wellFormed (Text.trim text)
  refine ⟨?_, ?_, ?_, ?_⟩
  · rw [← accepted]
    exact exists_congr fun _ => readAmount_eq_ok_iff
  · intro amount read
    exact denoted amount (readAmount_eq_ok_iff.mp read)
  · intro fault failed
    rw [readAmount] at failed
    cases result : Amount.ofText text with
    | error reason =>
      rw [result] at failed
      exact ⟨reason, (Except.error.inj failed).symm⟩
    | ok amount =>
      rw [result] at failed
      cases failed
  · exact readAmount_trim text

/-- A thousand dollars and fifty cents, owed. -/
def Amount.Parts.owed : Amount.Parts := ⟨true, ['$'], false, "1,000.50".toList, []⟩

theorem Amount.Parts.owed_wellFormed : owed.WellFormed where
  oneSign := by decide
  leading := List.forall_mem_singleton.mpr (by decide)
  trailing _ member := nomatch member
  oneSymbol := .inr rfl
  characters c member := by
    have all : owed.number.all (fun c => c.isDigit || c == ',' || c == '.') = true := by decide
    simpa [or_assoc] using List.all_eq_true.mp all c member
  onePoint := by decide
  someDigit := ⟨'1', by decide⟩
  fits := ⟨100050, 2, by decide, by decide, by decide +kernel⟩

theorem readAmount_owed :
    (∃ amount, readAmount " -$1,000.50".toList = .ok amount ∧ amount.number.value = -(2001 / 2) ∧
      amount.number.negative = true ∧ amount.commodity = some ⟨"$", true⟩) ∧
    ∃ reason, readAmount "$1 000 ".toList = .error (.malformedAmount "$1 000" reason) := by
  obtain ⟨accepted, denoted, -, -⟩ := readAmount_ok_iff_wellFormed " -$1,000.50".toList
  obtain ⟨amount, read⟩ := accepted.mpr ⟨.owed, Amount.Parts.owed_wellFormed, by decide⟩
  have denotes := denoted amount read .owed Amount.Parts.owed_wellFormed (by decide)
  have value : Amount.writtenValue Amount.Parts.owed.number = 2001 / 2 := by decide +kernel
  obtain ⟨-, -, malformed, -⟩ := readAmount_ok_iff_wellFormed "$1 000 ".toList
  have failed : readAmount "$1 000 ".toList = .error (.malformedAmount "$1 000" .shape) := by decide
  refine ⟨⟨amount, read, ?_, denotes.negative, denotes.leading (by decide)⟩, ?_⟩
  · rw [denotes.value, value]
    rfl
  · obtain ⟨reason, same⟩ := malformed _ failed
    exact ⟨reason, failed.trans (congrArg _ same)⟩

end DoubleEntry

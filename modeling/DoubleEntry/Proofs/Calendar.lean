import DoubleEntry.Calendar
import DoubleEntry.Proofs.Text.Digits
import DoubleEntry.Proofs.Text.Trimming

/-! Dates as a journal shows them. The date of a header has a year of four digits, and its text is
read as the same date. -/

namespace DoubleEntry

variable {digits rest text : List Char} {width number most : Nat}

theorem isDigit_digitsPadded (width number : Nat) :
    ∀ c ∈ (digitsPadded width number).toList, c.isDigit = true := by
  rw [digitsPadded, String.toList_ofList]
  exact Text.isDigit_padded _ number

/-- A number below the bound takes up the whole width and nothing more. -/
theorem length_digitsPadded (some : 0 < width) (less : number < 10 ^ width) :
    (digitsPadded width number).toList.length = width := by
  have short := (Nat.length_toDigits_le_iff (by decide : 1 < 10) some).mpr less
  rw [digitsPadded, String.toList_ofList, List.length_append, List.length_replicate]
  omega

theorem ofDigitChars_digitsPadded (width number : Nat) :
    Nat.ofDigitChars 10 (digitsPadded width number).toList 0 = number := by
  rw [digitsPadded, String.toList_ofList]
  exact Text.ofDigitChars_padded _ number

theorem readDigits?_append (allDigits : ∀ c ∈ digits, c.isDigit = true) (nonempty : digits ≠ [])
    (short : digits.length ≤ most) (stops : ∀ c ∈ rest.head?, c.isDigit = false) :
    readDigits? (some most) (digits ++ rest) = some (Nat.ofDigitChars 10 digits 0, rest) := by
  have starts : Text.trimStart (digits ++ rest) = digits ++ rest := by
    cases digits with
    | nil => exact absurd rfl nonempty
    | cons c digits =>
      have solid := Text.not_isBlank_of_isDigit (allDigits c (by simp))
      simp [Text.trimStart, solid]
  simp only [readDigits?, starts, Text.takeWhile_append_of_stop allDigits stops,
    List.take_of_length_le short, List.drop_left]
  rw [if_neg (by simpa using nonempty)]

theorem readDigits?_digitsPadded (some : 0 < width) (less : number < 10 ^ width)
    (stops : ∀ c ∈ rest.head?, c.isDigit = false) :
    readDigits? (.some width) ((digitsPadded width number).toList ++ rest) =
      .some (number, rest) := by
  have length := length_digitsPadded some less
  have nonempty : (digitsPadded width number).toList ≠ [] :=
    List.ne_nil_of_length_pos (by omega)
  rw [readDigits?_append (isDigit_digitsPadded width number) nonempty length.le stops,
    ofDigitChars_digitsPadded]

/-- A text that starts with a digit starts with a year of at most four digits. -/
theorem readYear?_of_isDigit {c : Char} (digit : c.isDigit = true) (rest : List Char) :
    readYear? (c :: rest) =
      (readDigits? (some 4) (c :: rest)).map fun (year, rest) => ((year : Int), rest) := by
  have solid := Text.not_isBlank_of_isDigit digit
  have starts : Text.trimStart (c :: rest) = c :: rest := by simp [Text.trimStart, solid]
  unfold readYear?
  rw [starts]
  split
  case h_1 same =>
    rw [(List.cons.inj same).1] at digit
    exact absurd digit (by decide)
  case h_2 same =>
    rw [(List.cons.inj same).1] at digit
    exact absurd digit (by decide)
  case h_3 =>
    cases readDigits? (some 4) (c :: rest) <;> rfl

namespace Date

variable {date : Date}

def HasFourDigits (date : Date) : Prop := 0 ≤ date.year ∧ date.year ≤ 9999

theorem bounds (date : Date) : date.month < 10 ^ 2 ∧ date.day < 10 ^ 2 := by
  have valid := date.exists_day
  simp only [isDay, Bool.and_eq_true, decide_eq_true_eq] at valid
  have longest : daysIn date.year date.month ≤ 31 := by
    unfold daysIn
    split
    · split <;> decide
    · split <;> decide
  omega

theorem ofParts?_eq (date : Date) : ofParts? date.year date.month date.day = some date := by
  rw [ofParts?, dif_pos date.exists_day]

theorem toList_text (fourDigits : date.HasFourDigits) :
    (date.text "/").toList = (digitsPadded 4 date.year.toNat).toList ++
      ('/' :: ((digitsPadded 2 date.month).toList ++ ('/' :: (digitsPadded 2 date.day).toList))) := by
  obtain ⟨positive, less⟩ := fourDigits
  have year : yearText date.year = digitsPadded 4 date.year.toNat := by
    have natAbs : date.year.natAbs = date.year.toNat := by omega
    rw [yearText, if_neg (by omega), if_neg (by omega), natAbs]
    exact String.empty_append
  rw [text, year, String.toList_intercalate]
  simp

theorem year_lt (fourDigits : date.HasFourDigits) : date.year.toNat < 10 ^ 4 := by
  obtain ⟨_, less⟩ := fourDigits
  omega

theorem head_text (fourDigits : date.HasFourDigits) :
    ∃ c rest, (date.text "/").toList = c :: rest ∧ c.isDigit = true := by
  rw [toList_text fourDigits]
  have digits := isDigit_digitsPadded 4 date.year.toNat
  have length := length_digitsPadded (by decide : 0 < 4) (year_lt fourDigits)
  cases four : (digitsPadded 4 date.year.toNat).toList with
  | nil => simp [four] at length
  | cons c rest => exact ⟨c, _, rfl, digits c (by simp [four])⟩

theorem characters_text (fourDigits : date.HasFourDigits) :
    ∀ c ∈ (date.text "/").toList, c.isDigit = true ∨ c = '/' := by
  intro c member
  rw [toList_text fourDigits] at member
  simp only [List.mem_append, List.mem_cons] at member
  rcases member with year | rfl | month | rfl | day
  · exact .inl (isDigit_digitsPadded _ _ c year)
  · exact .inr rfl
  · exact .inl (isDigit_digitsPadded _ _ c month)
  · exact .inr rfl
  · exact .inl (isDigit_digitsPadded _ _ c day)

theorem ofText?_text (fourDigits : date.HasFourDigits) :
    ofText? (date.text "/").toList = some date := by
  obtain ⟨month, day⟩ := date.bounds
  obtain ⟨c, rest, text, digit⟩ := head_text fourDigits
  have yearRead : readYear? (date.text "/").toList = some (date.year,
      '/' :: ((digitsPadded 2 date.month).toList ++ ('/' :: (digitsPadded 2 date.day).toList))) := by
    rw [text, readYear?_of_isDigit digit, ← text, toList_text fourDigits,
      readDigits?_digitsPadded (by decide) (year_lt fourDigits) (by simp)]
    simp only [Option.map_some, Int.toNat_of_nonneg fourDigits.1]
  have monthRead : readDigits? (some 2)
      ((digitsPadded 2 date.month).toList ++ '/' :: (digitsPadded 2 date.day).toList) =
        some (date.month, '/' :: (digitsPadded 2 date.day).toList) :=
    readDigits?_digitsPadded (by decide) month (by simp)
  have dayRead : readDigits? (some 2) ((digitsPadded 2 date.day).toList ++ []) =
      some (date.day, []) :=
    readDigits?_digitsPadded (by decide) day (by simp)
  rw [List.append_nil] at dayRead
  have read : read? '/' (date.text "/").toList = some (date, []) := by
    simp [read?, yearRead, readMark?, monthRead, dayRead, ofParts?_eq]
  rw [ofText?, List.findSome?_cons, read]
  rfl

theorem year_of_ofParts? {year : Int} {month day : Nat}
    (made : ofParts? year month day = some date) : date.year = year := by
  unfold ofParts? at made
  split at made
  · rw [← Option.some.inj made]
  · cases made

theorem readDigits?_lt {value : Nat} (read : readDigits? (some most) text = some (value, rest)) :
    value < 10 ^ most := by
  simp only [readDigits?] at read
  split at read
  · cases read
  · have digits : ∀ c ∈ ((Text.trimStart text).takeWhile Char.isDigit).take most,
        c.isDigit = true :=
      fun c member => List.mem_takeWhile_imp (List.mem_of_mem_take member)
    obtain ⟨rfl, _⟩ := Prod.mk.inj (Option.some.inj read)
    exact (Text.ofDigitChars_lt digits).trans_le
      (Nat.pow_le_pow_right (by decide) (List.length_take_le ..))

/-- A text that starts with a digit is read as a date whose year has four digits. -/
theorem hasFourDigits_of_ofText? {c : Char} {rest : List Char} (digit : c.isDigit = true)
    (read : ofText? (c :: rest) = some date) : date.HasFourDigits := by
  obtain ⟨separator, _, parts⟩ := List.exists_of_findSome?_eq_some read
  obtain ⟨_, taken, parts⟩ := Option.bind_eq_some_iff.mp parts
  obtain ⟨_, _, same'⟩ := Option.bind_eq_some_iff.mp parts
  simp only [Option.bind_eq_bind, Option.bind_eq_some_iff, read?] at taken
  obtain ⟨⟨year, _⟩, yearRead, _, _, _, _, _, _, _, _, found, made, same⟩ := taken
  cases same
  cases same'
  rw [readYear?_of_isDigit digit, Option.map_eq_some_iff] at yearRead
  obtain ⟨⟨value, _⟩, number, same⟩ := yearRead
  cases same
  have bound := readDigits?_lt number
  rw [HasFourDigits, year_of_ofParts? made]
  dsimp only
  omega

end Date

end DoubleEntry

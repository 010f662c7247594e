import DoubleEntry.Proofs.Record.Printing
import Mathlib.Algebra.Order.BigOperators.Group.List

/-! The markers in the texts of transactions. Showing a transaction adds none, and reading lines adds
none, while a line with a marker loses one before it is read. So transactions that are shown and read
the same have no markers. -/

namespace DoubleEntry

open Text Source

def Posting.commodityNames (posting : Posting) : List Char :=
  (posting.amounts.map fun amounts =>
    amounts.entries.flatMap fun entry => entry.1.name.toList).getD []

theorem Posting.commodityNames_of_elided {posting : Posting} (elided : posting.amounts = none) :
    posting.commodityNames = [] := by
  rw [commodityNames, elided]
  rfl

theorem Posting.commodityNames_of_single {posting : Posting} {commodity : Commodity}
    {number : Decimal} (given : posting.amounts = some (Balance.single commodity number)) :
    posting.commodityNames = commodity.name.toList := by
  rw [commodityNames, given]
  exact List.append_nil _

/-- The markers in an account name and in commodity names. -/
def Posting.marks (posting : Posting) : Nat :=
  Source.marks posting.accountName.toList + Source.marks posting.commodityNames

def Transaction.marks (transaction : Transaction) : Nat :=
  Source.marks transaction.description.toList + (transaction.postings.map Posting.marks).sum

/-- The markers in some lines. -/
def totalMarks (texts : List (List Char)) : Nat := (texts.map marks).sum

theorem totalMarks_append (first second : List (List Char)) :
    totalMarks (first ++ second) = totalMarks first + totalMarks second := by
  simp [totalMarks]

theorem totalMarks_cons (text : List Char) (texts : List (List Char)) :
    totalMarks (text :: texts) = marks text + totalMarks texts := rfl

/-! Stripping. -/

theorem meaningfulTexts_append (first second : List (List Char)) :
    meaningfulTexts (first ++ second) = meaningfulTexts first ++ meaningfulTexts second := by
  simp [meaningfulTexts]

theorem totalMarks_meaningfulTexts_singleton (text : List Char) :
    totalMarks (meaningfulTexts [text]) = marks (stripComment text) := by
  cases stripped : stripComment text with
  | nil => simp [meaningfulTexts, stripped, totalMarks, marks]
  | cons => simp [meaningfulTexts, stripped, totalMarks]

/-- Lines lose markers when they are stripped, unless they have none. -/
theorem totalMarks_meaningfulTexts (texts : List (List Char)) :
    totalMarks (meaningfulTexts texts) ≤ totalMarks texts ∧
      (totalMarks (meaningfulTexts texts) = totalMarks texts → ∀ text ∈ texts, Unmarked text) := by
  induction texts with
  | nil => exact ⟨le_refl _, fun _ _ member => nomatch member⟩
  | cons text texts ih =>
    obtain ⟨less, unmarked⟩ := ih
    have first := marks_le_of_sublist (stripComment_sublist text)
    have split : totalMarks (meaningfulTexts (text :: texts)) =
        marks (stripComment text) + totalMarks (meaningfulTexts texts) := by
      rw [← totalMarks_meaningfulTexts_singleton, ← totalMarks_append, ← meaningfulTexts_append]
      rfl
    rw [split, totalMarks_cons, List.forall_mem_cons]
    refine ⟨by omega, fun same => ⟨?_, unmarked (by omega)⟩⟩
    by_contra marked
    have lost := marks_stripComment_lt marked
    omega

/-! Showing. -/

/-- A character that makes a difference to how a text is cut into lines and comments. -/
def isSpecial (c : Char) : Bool := isCommentMarker c || c == '\\' || c == '\n'

/-- The characters of a text that make a difference. -/
def specials (text : List Char) : List Char := text.filter isSpecial

theorem specials_append (first second : List Char) :
    specials (first ++ second) = specials first ++ specials second :=
  List.filter_append ..

theorem specials_cons_of_not {c : Char} (plain : isSpecial c = false) (rest : List Char) :
    specials (c :: rest) = specials rest :=
  List.filter_cons_of_neg (by simp [plain])

theorem specials_eq_nil {text : List Char} (plain : ∀ c ∈ text, isSpecial c = false) :
    specials text = [] := by
  rw [specials, List.filter_eq_nil_iff]
  intro c member
  simp [plain c member]

theorem marks_specials (text : List Char) : marks (specials text) = marks text := by
  rw [marks, specials, List.countP_filter]
  refine List.countP_congr fun c _ => ?_
  simp only [isSpecial, Bool.and_eq_true, Bool.or_eq_true]
  tauto

theorem unmarked_specials_iff {text : List Char} : Unmarked (specials text) ↔ Unmarked text := by
  constructor
  · intro plain c member
    by_contra marker
    rw [Bool.not_eq_false] at marker
    have special : c ∈ specials text := List.mem_filter.mpr ⟨member, by simp [isSpecial, marker]⟩
    rw [plain c special] at marker
    cases marker
  · exact fun plain c member => plain c (List.mem_filter.mp member).1

theorem mem_specials_newline_iff {text : List Char} : '\n' ∈ specials text ↔ '\n' ∈ text := by
  rw [specials, List.mem_filter]
  exact and_iff_left rfl

theorem not_isSpecial_of_isDigit {c : Char} (digit : c.isDigit = true) : isSpecial c = false := by
  obtain ⟨marker, backslash⟩ := not_isCommentMarker_of_isDigit digit
  have newline : c ≠ '\n' := by
    rintro rfl
    cases digit
  simp [isSpecial, marker, backslash, newline]

theorem specials_blanks (count : Nat) : specials (blanks count).toList = [] := by
  refine specials_eq_nil fun c member => ?_
  rw [eq_of_mem_blanks member]
  decide

theorem specials_fixedText (number : Decimal) (places : Nat) :
    specials (number.fixedText places) = [] := by
  refine specials_eq_nil fun c member => ?_
  rw [Decimal.fixedText_eq, Decimal.signText] at member
  rcases List.mem_append.mp member with sign | shown
  · split at sign
    · rw [List.mem_singleton.mp sign]
      decide
    · cases sign
  · rcases (Commodity.numeral_shownDigits number places).characters c shown with digit | rfl
    · exact not_isSpecial_of_isDigit digit
    · decide

theorem specials_format (commodity : Commodity) (number : Decimal) :
    specials (commodity.format number).toList = specials commodity.name.toList := by
  rw [Commodity.toList_format]
  split <;> simp [specials_append, specials_fixedText]

theorem Posting.Legible.specials_line {posting : Posting} (legible : posting.Legible) :
    specials posting.line.toList =
      specials posting.accountName.toList ++ specials posting.commodityNames := by
  have columns (amounts : String) :
      specials (columnsBehind posting amounts) = specials amounts.toList := by
    rw [columnsBehind, specials_append, specials_blanks, List.nil_append,
      specials_cons_of_not (by decide), specials_append, specials_blanks, List.nil_append]
  rw [toList_line, specials_cons_of_not (by decide), specials_append, columns]
  cases given : posting.amounts with
  | none => rw [amountsText_of_elided given, commodityNames_of_elided given]; rfl
  | some amounts =>
    obtain ⟨commodity, number, rfl, _⟩ := legible.amounts amounts given
    rw [amountsText_of_single given, commodityNames_of_single given, specials_format]

/-- What makes a difference in a header is the description. -/
theorem Transaction.Legible.specials_header {transaction : Transaction}
    (legible : transaction.Legible) :
    specials transaction.header.toList = specials transaction.description.toList := by
  have date : specials transaction.dateText.toList = [] := by
    refine specials_eq_nil fun c member => ?_
    rcases Date.characters_text legible.date c member with digit | rfl
    · exact not_isSpecial_of_isDigit digit
    · decide
  rw [toList_header, specials_append, date, List.nil_append, specials_cons_of_not (by decide)]

theorem Posting.Legible.marks_line {posting : Posting} (legible : posting.Legible) :
    Source.marks posting.line.toList = posting.marks := by
  rw [← marks_specials, legible.specials_line, marks_append, marks_specials, marks_specials, marks]

theorem Transaction.Legible.marks_header {transaction : Transaction}
    (legible : transaction.Legible) :
    Source.marks transaction.header.toList = Source.marks transaction.description.toList := by
  rw [← marks_specials, legible.specials_header, marks_specials]

theorem Transaction.Legible.totalMarks_lines {transaction : Transaction}
    (legible : transaction.Legible) :
    totalMarks (transaction.lines.map String.toList) = transaction.marks := by
  have postings : (transaction.postings.map Posting.line).map
      (fun line => Source.marks line.toList) = transaction.postings.map Posting.marks := by
    rw [List.map_map]
    exact List.map_congr_left fun posting member => (legible.postings posting member).marks_line
  rw [lines, List.map_cons, totalMarks_cons, legible.marks_header, totalMarks, List.map_map, marks]
  exact congrArg (_ + List.sum ·) postings

/-! Reading. -/

theorem marks_intercalate {mark : Char} (plain : isSpecial mark = false)
    (segments : List (List Char)) :
    marks ([mark].intercalate segments) = totalMarks segments := by
  have none : marks [mark] = 0 := by
    rw [← marks_specials, specials_cons_of_not plain]
    rfl
  induction segments with
  | nil => rfl
  | cons segment segments ih =>
    cases segments with
    | nil => rw [List.intercalate_singleton]; exact (Nat.add_zero _).symm
    | cons next segments =>
      rw [List.intercalate_cons_cons, marks_append, marks_append, none, ih, totalMarks_cons segment]
      rfl

theorem marks_of_readPosting {line : List Char} {posting : Posting}
    (read : readPosting line = .ok posting) : posting.marks ≤ marks line := by
  obtain ⟨account, amounts⟩ := readPosting_ok read
  have halves := congrArg marks (splitPosting_append (trim line))
  rw [marks_append] at halves
  have whole := marks_le_of_sublist (trim_sublist line)
  have first := marks_le_of_sublist (trim_sublist (splitPosting (trim line)).1)
  have second := marks_le_of_sublist (trim_sublist (splitPosting (trim line)).2)
  have name : marks posting.accountName.toList ≤
      marks (trim (splitPosting (trim line)).1) := by
    rw [toList_accountName, account, toList_accountOfName, marks_intercalate (by decide)]
    have rejoined : [':'].intercalate ((trim (splitPosting (trim line)).1).splitOn ':') =
        trim (splitPosting (trim line)).1 := List.intercalate_splitOn ':'
    conv_rhs => rw [← rejoined, marks_intercalate (by decide)]
    rw [totalMarks, totalMarks, List.map_map]
    exact List.sum_le_sum fun segment _ => marks_le_of_sublist (trim_sublist segment)
  have commodity : marks posting.commodityNames ≤
      marks (trim (splitPosting (trim line)).2) := by
    rcases amounts with elided | ⟨amount, amountRead, given⟩
    · rw [Posting.commodityNames_of_elided elided]
      exact Nat.zero_le _
    · rw [Posting.commodityNames_of_single given]
      exact marks_le_of_sublist (Commodity.legible_of_readAmount amountRead).2
  rw [Posting.marks]
  omega

theorem marks_of_readHeader {line : List Char} {transaction : Transaction}
    (read : readHeader line = .ok transaction) : transaction.marks ≤ marks line := by
  rw [readHeader_eq] at read
  split at read
  case h_2 => cases read
  case h_1 =>
    rw [← Except.ok.inj read, Transaction.marks, String.toList_ofList]
    refine marks_le_of_sublist ?_
    exact (((trimStart_isSuffix _).trans (List.dropWhile_suffix _)).sublist).trans (trim_sublist line)

def openMarks (opened : Option Transaction) : Nat := (opened.map Transaction.marks).getD 0

def transactionMarks (transactions : List Transaction) : Nat :=
  (transactions.map Transaction.marks).sum

theorem transactionMarks_toList (opened : Option Transaction) :
    transactionMarks opened.toList = openMarks opened := by
  cases opened <;> simp [transactionMarks, openMarks]

/-- Passing a line adds no markers but those of the line. -/
theorem Passes.marks {line : List Char} {opened next : Option Transaction}
    {closed : List Transaction} (passes : Passes line opened closed next) :
    transactionMarks closed + openMarks next ≤ openMarks opened + Source.marks line := by
  cases passes with
  | skipped _ empty => simp [transactionMarks]
  | posting transaction posting nonempty read =>
    have added := marks_of_readPosting read
    simp only [transactionMarks, openMarks, Transaction.marks, List.map_append, List.sum_append,
      List.map_cons, List.map_nil, List.sum_cons, List.sum_nil, Option.map_some, Option.getD_some]
    omega
  | header _ transaction first starts digit read =>
    have added := marks_of_readHeader read
    rw [transactionMarks_toList]
    exact Nat.add_le_add_left added _
  | other =>
    rw [transactionMarks_toList]
    exact Nat.add_le_add_left (Nat.zero_le _) _

/-- A pass over lines adds no markers but those of the lines. -/
theorem marks_gathered (pending : Option OpenRecord) (error : Option ParseError)
    (lines : List Line) :
    transactionMarks (gathered pending error lines) ≤
      openMarks (pending.map OpenRecord.transaction) + totalMarks (lines.map Line.text) := by
  induction lines generalizing pending with
  | nil =>
    cases error with
    | some => exact Nat.zero_le _
    | none =>
      rw [gathered, gather, transactionsOf_close]
      cases pending with
      | none => exact Nat.zero_le _
      | some record => exact le_refl _
  | cons line rest ih =>
    rw [List.map_cons, totalMarks_cons]
    rcases gathered_cons pending error line rest with failed | ⟨closed, next, passes, step⟩
    · rw [failed]
      exact Nat.zero_le _
    · have here := passes.marks
      have later := ih next
      have split : transactionMarks (closed ++ gathered next error rest) =
          transactionMarks closed + transactionMarks (gathered next error rest) := by
        simp [transactionMarks]
      rw [step, split]
      omega

end DoubleEntry

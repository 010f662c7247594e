import DoubleEntry.Proofs.Record.Marks
import DoubleEntry.Proofs.Report.RunningTotals

/-! The text of a register, line by line. Each posting takes a line for every amount of its change or
of its total, whichever has more, and the amounts stand under each other in their columns, with
blanks below. The header stands on the first line of its entry, and the account on the first line of
its posting. -/

namespace DoubleEntry

open Text

/-- A line of a register by its columns. -/
structure RegisterRow where
  header : String
  account : String
  change : String
  total : String

namespace RegisterRow

def text (row : RegisterRow) : String :=
  " ".intercalate [padRight 64 row.header, padRight 50 row.account, row.change, row.total]

/-- The columns of a row are found at their places in a line, for amounts of some width. -/
structure StandsIn (row : RegisterRow) (width : Nat) (line : List Char) : Prop where
  header : line.take 64 = (padRight 64 row.header).toList
  account : (line.drop 65).take 50 = (padRight 50 row.account).toList
  change : (line.drop 116).take width = row.change.toList
  total : line.drop (117 + width) = row.total.toList

theorem toList_text (row : RegisterRow) :
    row.text.toList = (padRight 64 row.header).toList ++ ' ' :: ((padRight 50 row.account).toList ++
      ' ' :: (row.change.toList ++ ' ' :: row.total.toList)) := by
  simp [text, String.toList_append]

theorem length_toList_padRight {width : Nat} {text : String} (fits : text.length ≤ width) :
    (padRight width text).toList.length = width := by
  rw [padRight, String.toList_append, toList_blanks, List.length_append, List.length_replicate,
    String.length_toList]
  omega

/-- A row whose texts fit their columns is read off its line. -/
theorem standsIn_text {row : RegisterRow} {width : Nat} (header : row.header.length ≤ 64)
    (account : row.account.length ≤ 50) (change : row.change.length = width) :
    row.StandsIn width row.text.toList := by
  have headerLength := length_toList_padRight header
  have accountLength := length_toList_padRight account
  have changeLength : row.change.toList.length = width := by rw [String.length_toList, change]
  have behindHeader : row.text.toList.drop 65 = (padRight 50 row.account).toList ++
      ' ' :: (row.change.toList ++ ' ' :: row.total.toList) := by
    rw [toList_text, List.append_cons, List.drop_left' (by simp [headerLength])]
  have behindAccount : row.text.toList.drop 116 =
      row.change.toList ++ ' ' :: row.total.toList := by
    rw [← List.drop_drop (i := 51) (j := 65), behindHeader, List.append_cons,
      List.drop_left' (by simp [accountLength])]
  refine ⟨?_, ?_, ?_, ?_⟩
  · rw [toList_text, List.take_left' headerLength]
  · rw [behindHeader, List.take_left' accountLength]
  · rw [behindAccount, List.take_left' changeLength]
  · have places : 117 + width = 116 + (width + 1) := by omega
    rw [places, ← List.drop_drop, behindAccount, List.append_cons,
      List.drop_left' (by simp [changeLength])]

end RegisterRow

theorem exists_of_mem_right {α β : Type} {related : α → β → Prop} {left : List α} {right : List β}
    (pairs : List.Forall₂ related left right) {b : β} (member : b ∈ right) :
    ∃ a ∈ left, related a b := by
  induction pairs with
  | nil => cases member
  | cons first _ ih =>
    obtain rfl | later := List.mem_cons.mp member
    · exact ⟨_, List.mem_cons_self .., first⟩
    · obtain ⟨a, inside, here⟩ := ih later
      exact ⟨a, List.mem_cons_of_mem _ inside, here⟩

namespace Renderer

variable {renderer : Renderer} {line : RegisterLine} {entry : RegisterEntry}

/-- An amount as the register shows it, at the right of its column. -/
def shownAmount (renderer : Renderer) (amount : Commodity × Decimal) : String :=
  padLeft renderer.width (amount.1.format amount.2 renderer.places)

/-- The amounts of a total as the register shows them; a zero if there are none. -/
def shownTotal (renderer : Renderer) (total : Balance) : List String :=
  if total.entries = [] then [padLeft renderer.width "0"]
  else total.entries.map renderer.shownAmount

/-- What the rows of a posting show. -/
structure PostingShown (renderer : Renderer) (line : RegisterLine) (rows : List RegisterRow) :
    Prop where
  count : rows.length = max (max line.change.entries.length line.total.entries.length) 1
  accounts : rows.map (·.account) = line.account :: List.replicate (rows.length - 1) ""
  changes : rows.map (·.change) = line.change.entries.map renderer.shownAmount ++
    List.replicate (rows.length - line.change.entries.length) (blanks renderer.width)
  totals : rows.map (·.total) = renderer.shownTotal line.total ++
    List.replicate (rows.length - max line.total.entries.length 1) (blanks renderer.width)

/-- What the rows of an entry show, posting by posting. -/
structure EntryShown (renderer : Renderer) (entry : RegisterEntry)
    (blocks : List (List RegisterRow)) : Prop where
  postings : List.Forall₂ renderer.PostingShown entry.lines blocks
  headers : blocks.flatten.map (·.header) = entry.transaction.header ::
    List.replicate (blocks.flatten.length - 1) ""

/-- The rows of a posting, with a header on the first of them. -/
def rows (renderer : Renderer) (header : String) (line : RegisterLine) : List RegisterRow :=
  let changes := renderer.amounts line.change
  let totals := renderer.amountsOrZero line.total
  (List.range (max changes.length totals.length)).map fun index =>
    { header := if index = 0 then header else ""
      account := if index = 0 then line.account else ""
      change := renderer.cell changes index
      total := renderer.cell totals index }

theorem registerLines_eq (renderer : Renderer) (header : String) (line : RegisterLine) :
    renderer.registerLines header line = (renderer.rows header line).map RegisterRow.text := by
  rw [registerLines, rows, List.map_map]
  refine List.map_congr_left fun index _ => ?_
  by_cases first : index = 0 <;> simp [first, RegisterRow.text]

/-! The columns of a posting. -/

theorem map_cell_range (renderer : Renderer) {column : List String} {count : Nat}
    (fits : column.length ≤ count) :
    (List.range count).map (renderer.cell column) =
      column ++ List.replicate (count - column.length) (blanks renderer.width) := by
  refine List.ext_getElem (by simp [fits]) fun index inside _ => ?_
  rw [List.getElem_map, List.getElem_range, cell]
  by_cases given : index < column.length
  · rw [List.getElem?_eq_getElem given, Option.getD_some, List.getElem_append_left given]
  · rw [List.getElem?_eq_none (by omega), Option.getD_none, List.getElem_append_right (by omega),
      List.getElem_replicate]

theorem map_first_range (text : String) {count : Nat} (some : count ≠ 0) :
    ((List.range count).map fun index => if index = 0 then text else "") =
      text :: List.replicate (count - 1) "" := by
  obtain ⟨count, rfl⟩ := Nat.exists_eq_succ_of_ne_zero some
  simp [List.range_succ_eq_map, Function.comp_def]

theorem amounts_eq (renderer : Renderer) (balance : Balance) :
    renderer.amounts balance = balance.entries.map renderer.shownAmount := by
  rw [amounts, Balance.texts, List.map_map]
  rfl

theorem length_amounts (renderer : Renderer) (balance : Balance) :
    (renderer.amounts balance).length = balance.entries.length := by
  rw [amounts_eq, List.length_map]

theorem amountsOrZero_eq (renderer : Renderer) (balance : Balance) :
    renderer.amountsOrZero balance = renderer.shownTotal balance := by
  rw [amountsOrZero, shownTotal, amounts_eq]
  simp only [List.isEmpty_iff]

theorem length_shownTotal (renderer : Renderer) (total : Balance) :
    (renderer.shownTotal total).length = max total.entries.length 1 := by
  rw [shownTotal]
  split
  case isTrue none => simp [none]
  case isFalse some =>
    have := List.length_pos_iff.mpr some
    rw [List.length_map]
    omega

theorem length_rows (renderer : Renderer) (header : String) (line : RegisterLine) :
    (renderer.rows header line).length =
      max (max line.change.entries.length line.total.entries.length) 1 := by
  rw [rows, List.length_map, List.length_range, length_amounts, amountsOrZero_eq,
    length_shownTotal]
  omega

theorem map_header_rows (renderer : Renderer) (header : String) (line : RegisterLine) :
    (renderer.rows header line).map (·.header) =
      header :: List.replicate ((renderer.rows header line).length - 1) "" := by
  have count := length_rows renderer header line
  rw [rows, List.length_map, List.length_range] at *
  rw [List.map_map]
  exact map_first_range header (by omega)

theorem postingShown_rows (renderer : Renderer) (header : String) (line : RegisterLine) :
    renderer.PostingShown line (renderer.rows header line) where
  count := length_rows renderer header line
  accounts := by
    have count := length_rows renderer header line
    rw [rows, List.length_map, List.length_range] at *
    rw [List.map_map]
    exact map_first_range line.account (by omega)
  changes := by
    rw [← amounts_eq, ← length_amounts, rows, List.map_map, List.length_map, List.length_range]
    exact renderer.map_cell_range (Nat.le_max_left ..)
  totals := by
    rw [← length_shownTotal, ← amountsOrZero_eq, rows, List.map_map, List.length_map,
      List.length_range]
    exact renderer.map_cell_range (Nat.le_max_right ..)

/-! The lines of an entry. -/

def blocks (renderer : Renderer) (entry : RegisterEntry) : List (List RegisterRow) :=
  match entry.lines with
  | [] => []
  | first :: later => renderer.rows entry.transaction.header first :: later.map (renderer.rows "")

theorem entryLines_eq (renderer : Renderer) (entry : RegisterEntry) :
    renderer.entryLines entry = (renderer.blocks entry).flatten.map RegisterRow.text := by
  rw [entryLines, blocks]
  cases entry.lines with
  | nil => rfl
  | cons first later =>
    have headless : (later.mapIdx fun index line => renderer.registerLines
        (if index + 1 == 0 then entry.transaction.header else "") line) =
          later.map (renderer.registerLines "") :=
      List.ext_getElem (by simp) (by simp)
    rw [List.mapIdx_cons, headless, List.flatten_cons, List.flatten_cons, List.map_append,
      List.map_flatten, List.map_map]
    congr 1
    · exact renderer.registerLines_eq _ first
    · exact congrArg List.flatten (List.map_congr_left fun line _ => renderer.registerLines_eq "" line)

theorem header_eq_of_mem_later {later : List RegisterLine} {row : RegisterRow}
    (member : row ∈ (later.map (renderer.rows "")).flatten) : row.header = "" := by
  obtain ⟨block, inside, member⟩ := List.mem_flatten.mp member
  obtain ⟨line, _, rfl⟩ := List.mem_map.mp inside
  have shown : row.header ∈ (renderer.rows "" line).map (·.header) := List.mem_map_of_mem member
  rw [map_header_rows, List.mem_cons] at shown
  exact shown.elim id List.eq_of_mem_replicate

theorem entryShown_blocks (renderer : Renderer) (some : entry.lines ≠ []) :
    renderer.EntryShown entry (renderer.blocks entry) := by
  rw [blocks]
  cases lines : entry.lines with
  | nil => exact absurd lines some
  | cons first later =>
    have count : (renderer.rows entry.transaction.header first).length ≠ 0 := by
      rw [length_rows]
      omega
    refine ⟨?_, ?_⟩
    · rw [lines]
      refine .cons (renderer.postingShown_rows _ first) ?_
      exact List.forall₂_map_right_iff.mpr
        (List.forall₂_same.mpr fun line _ => renderer.postingShown_rows "" line)
    · have headless := List.eq_replicate_of_mem (a := "")
        (l := (later.map (renderer.rows "")).flatten.map (·.header)) fun header member => by
          obtain ⟨row, inside, rfl⟩ := List.mem_map.mp member
          exact header_eq_of_mem_later inside
      rw [List.flatten_cons, List.map_append, map_header_rows, headless, List.length_map,
        List.cons_append, ← List.replicate_add, List.length_append, Nat.sub_add_comm (by omega)]

theorem register_eq (renderer : Renderer) (entries : List RegisterEntry) :
    renderer.register entries =
      joinLines ((entries.map renderer.blocks).flatten.flatten.map RegisterRow.text) := by
  rw [register]
  congr 1
  induction entries with
  | nil => rfl
  | cons entry entries ih =>
    rw [List.flatMap_cons, ih, entryLines_eq, List.map_cons, List.flatten_cons,
      List.flatten_append, List.map_append]

/-! What holds of every row. -/

/-- What holds of the texts of a column and of what fills it up holds in all rows. -/
theorem forall_of_column (holds : String → Prop) (texts : List String)
    {rows : List RegisterRow} {view : RegisterRow → String} {filler : String} {count : Nat}
    (column : rows.map view = texts ++ List.replicate count filler)
    (each : ∀ text ∈ texts, holds text) (filled : holds filler) : ∀ row ∈ rows, holds (view row) := by
  intro row member
  have shown : view row ∈ rows.map view := List.mem_map_of_mem member
  rw [column, List.mem_append] at shown
  obtain given | blank := shown
  · exact each _ given
  · exact List.eq_of_mem_replicate blank ▸ filled

theorem mem_rows_iff {entries : List RegisterEntry} {row : RegisterRow} :
    row ∈ (entries.map renderer.blocks).flatten.flatten ↔
      ∃ entry ∈ entries, row ∈ (renderer.blocks entry).flatten := by
  rw [List.flatten_flatten, List.map_map, ← List.flatMap_def, List.mem_flatMap]
  rfl

theorem EntryShown.exists_mem {blocks : List (List RegisterRow)}
    (shown : renderer.EntryShown entry blocks) : ∃ row, row ∈ blocks.flatten := by
  refine List.exists_mem_of_ne_nil _ fun none => ?_
  have headers := shown.headers
  rw [none] at headers
  cases headers

/-- The row of an entry shows its header or none, and one of its postings. -/
theorem EntryShown.cases {blocks : List (List RegisterRow)} {row : RegisterRow}
    (shown : renderer.EntryShown entry blocks) (member : row ∈ blocks.flatten) :
    (row.header = entry.transaction.header ∨ row.header = "") ∧
      ∃ line ∈ entry.lines, ∃ rows, renderer.PostingShown line rows ∧ row ∈ rows := by
  constructor
  · exact forall_of_column (fun text => text = entry.transaction.header ∨ text = "")
      [entry.transaction.header] shown.headers (by simp) (.inr rfl) row member
  · obtain ⟨rows, inside, member⟩ := List.mem_flatten.mp member
    obtain ⟨line, given, here⟩ := exists_of_mem_right shown.postings inside
    exact ⟨line, given, rows, here, member⟩

end Renderer

/-! Line feeds. -/

/-- An entry whose texts have no line feed. -/
structure RegisterEntry.OneLine (entry : RegisterEntry) : Prop where
  description : '\n' ∉ entry.transaction.description.toList
  accounts : ∀ line ∈ entry.lines, '\n' ∉ line.account.toList
  commodities : ∀ line ∈ entry.lines, ∀ commodity ∈ line.change.keys ++ line.total.keys,
    '\n' ∉ commodity.name.toList

theorem Date.newline_not_mem_text (date : Date) : '\n' ∉ (date.text "/").toList := by
  have digits (width number : Nat) : '\n' ∉ (digitsPadded width number).toList := fun member =>
    absurd (isDigit_digitsPadded width number _ member) (by decide)
  have year : '\n' ∉ (yearText date.year).toList := by
    rw [yearText, String.toList_append, List.mem_append, not_or]
    refine ⟨?_, digits _ _⟩
    split
    · decide
    · split <;> decide
  simp [Date.text, digits, year]

theorem Transaction.newline_not_mem_header {transaction : Transaction}
    (description : '\n' ∉ transaction.description.toList) :
    '\n' ∉ transaction.header.toList := by
  rw [toList_header, List.mem_append, List.mem_cons, not_or, not_or]
  exact ⟨transaction.date.newline_not_mem_text, by decide, description⟩

namespace Renderer

theorem newline_not_mem_blanks (count : Nat) : '\n' ∉ (blanks count).toList := fun member =>
  absurd (eq_of_mem_blanks member) (by decide)

variable {renderer : Renderer} {entry : RegisterEntry} {blocks : List (List RegisterRow)}
  {row : RegisterRow}

theorem newline_not_mem_shownAmount {amount : Commodity × Decimal}
    (name : '\n' ∉ amount.1.name.toList) : '\n' ∉ (renderer.shownAmount amount).toList := by
  have number : '\n' ∉ amount.2.fixedText renderer.places := by
    rw [← mem_specials_newline_iff, specials_fixedText]
    exact List.not_mem_nil
  rw [shownAmount, padLeft, String.toList_append, List.mem_append, not_or, Commodity.toList_format]
  refine ⟨newline_not_mem_blanks _, ?_⟩
  split <;> simp [name, number]

theorem EntryShown.oneLine (shown : renderer.EntryShown entry blocks) (oneLine : entry.OneLine)
    (member : row ∈ blocks.flatten) : '\n' ∉ row.text.toList := by
  obtain ⟨heading, line, given, rows, posting, inside⟩ := shown.cases member
  have amounts (balance : Balance)
      (names : ∀ commodity ∈ balance.keys, '\n' ∉ commodity.name.toList) :
      ∀ text ∈ balance.entries.map renderer.shownAmount, '\n' ∉ text.toList := by
    refine List.forall_mem_map.mpr fun amount member => newline_not_mem_shownAmount ?_
    exact names _ (List.mem_map_of_mem member)
  obtain ⟨changed, totalled⟩ := List.forall_mem_append.mp (oneLine.commodities line given)
  have header : '\n' ∉ row.header.toList := by
    obtain here | none := heading
    · rw [here]
      exact Transaction.newline_not_mem_header oneLine.description
    · simp [none]
  have account : '\n' ∉ row.account.toList :=
    forall_of_column (fun text => '\n' ∉ text.toList) [line.account] posting.accounts
      (by simpa using oneLine.accounts line given) (by simp) row inside
  have change : '\n' ∉ row.change.toList :=
    forall_of_column (fun text => '\n' ∉ text.toList) _ posting.changes
      (amounts line.change changed) (newline_not_mem_blanks _) row inside
  have total : '\n' ∉ row.total.toList := by
    refine forall_of_column (fun text => '\n' ∉ text.toList) _ posting.totals ?_
      (newline_not_mem_blanks _) row inside
    rw [shownTotal]
    split
    · simp [padLeft, String.toList_append, newline_not_mem_blanks]
    · exact amounts line.total totalled
  simp [RegisterRow.toList_text, padRight, String.toList_append, newline_not_mem_blanks, header,
    account, change, total]

/-! Columns. -/

/-- An entry whose texts fit their columns. -/
structure Fits (renderer : Renderer) (entry : RegisterEntry) : Prop where
  header : entry.transaction.header.length ≤ 64
  accounts : ∀ line ∈ entry.lines, line.account.length ≤ 50
  changes : ∀ line ∈ entry.lines, ∀ amount ∈ line.change.entries,
    (renderer.shownAmount amount).length = renderer.width

/-- The rows of an entry that fits are read off their lines. -/
theorem EntryShown.standsIn (shown : renderer.EntryShown entry blocks)
    (fits : renderer.Fits entry) (member : row ∈ blocks.flatten) :
    row.StandsIn renderer.width row.text.toList := by
  obtain ⟨heading, line, given, rows, posting, inside⟩ := shown.cases member
  refine RegisterRow.standsIn_text ?_ ?_ ?_
  · obtain here | none := heading
    · exact here ▸ fits.header
    · simp [none]
  · exact forall_of_column (fun text => text.length ≤ 50) [line.account] posting.accounts
      (by simpa using fits.accounts line given) (by simp) row inside
  · refine forall_of_column (fun text => text.length = renderer.width) _ posting.changes
      (List.forall_mem_map.mpr (fits.changes line given)) ?_ row inside
    rw [blanks, String.length_ofList, List.length_replicate]

/-- A register shows every amount once, for all entries with a posting at least and for every way to
show amounts. Its text consists of rows, entry by entry and posting by posting. A posting takes as
many of them as its change or its total has amounts, and one at least; the amounts stand in their
columns in the order of the commodities, with nothing but blanks below, and an empty total is a zero;
the account stands on the first row of its posting alone, and the header on the first row of its
entry alone. Without line feeds in the texts the rows are the lines of the register, and where the
texts fit their columns they are read off at the same places in every line. -/
theorem register_shows_amounts_once (renderer : Renderer) {entries : List RegisterEntry}
    (postings : ∀ entry ∈ entries, entry.lines ≠ []) :
    ∃ table : List (List (List RegisterRow)),
      List.Forall₂ renderer.EntryShown entries table ∧
      renderer.register entries = joinLines (table.flatten.flatten.map RegisterRow.text) ∧
      (entries ≠ [] → (∀ entry ∈ entries, entry.OneLine) →
        (renderer.register entries).toList.splitOn '\n' =
          table.flatten.flatten.map fun row => row.text.toList) ∧
      ((∀ entry ∈ entries, renderer.Fits entry) →
        ∀ row ∈ table.flatten.flatten, row.StandsIn renderer.width row.text.toList) := by
  have shown : List.Forall₂ renderer.EntryShown entries (entries.map renderer.blocks) :=
    List.forall₂_map_right_iff.mpr (List.forall₂_same.mpr fun entry member =>
      renderer.entryShown_blocks (postings entry member))
  have placed (row : RegisterRow) (member : row ∈ (entries.map renderer.blocks).flatten.flatten) :
      ∃ entry ∈ entries, renderer.EntryShown entry (renderer.blocks entry) ∧
        row ∈ (renderer.blocks entry).flatten := by
    obtain ⟨entry, given, inside⟩ := mem_rows_iff.mp member
    exact ⟨entry, given, renderer.entryShown_blocks (postings entry given), inside⟩
  refine ⟨_, shown, renderer.register_eq entries, fun some oneLine => ?_, fun fits row member => ?_⟩
  · have rows : (entries.map renderer.blocks).flatten.flatten ≠ [] := by
      obtain ⟨entry, given⟩ := List.exists_mem_of_ne_nil _ some
      obtain ⟨row, inside⟩ := (renderer.entryShown_blocks (postings entry given)).exists_mem
      exact List.ne_nil_of_mem (mem_rows_iff.mpr ⟨entry, given, inside⟩)
    rw [register_eq, joinLines, String.toList_intercalate, List.map_map]
    refine List.splitOn_intercalate '\n' (List.forall_mem_map.mpr fun row member => ?_)
      (mt List.map_eq_nil_iff.mp rows)
    obtain ⟨entry, given, shown, inside⟩ := placed row member
    exact shown.oneLine (oneLine entry given) inside
  · obtain ⟨entry, given, shown, inside⟩ := placed row member
    exact shown.standsIn (fits entry given) inside

end Renderer

theorem Journal.lines_ne_nil_of_register [PatternEngine] {journal : Journal} {query : Query}
    {entries : List RegisterEntry} (registered : journal.register query = .ok entries) :
    ∀ entry ∈ entries, entry.lines ≠ [] := by
  intro entry member
  obtain ⟨_, _, shown⟩ :=
    exists_of_mem_right (Register.runsFrom_entries registered).2 member
  exact shown.nonempty

namespace Journal

/-- Coins that are bought with dollars. -/
def coins : Balance := .ofList [(⟨"$", true⟩, .spelled "-1"), (⟨" BTC", false⟩, .spelled "2.5")]

/-- A posting with the coins, and one to which nothing is left to infer. -/
def swap : Journal :=
  { transactions := [⟨default, "Swap", [⟨["Asset"], some coins⟩, ⟨["Bank"], none⟩]⟩,
      ⟨default, "Note", [⟨["Asset", "Cash"], none⟩]⟩] }

/-- The register of the assets: two commodities, and nothing on top of them. -/
def swapEntries : List RegisterEntry :=
  [⟨⟨default, "Swap", [⟨["Asset"], some coins⟩, ⟨["Bank"], some coins.neg⟩]⟩,
      [⟨"Asset", coins, coins⟩]⟩,
    ⟨⟨default, "Note", [⟨["Asset", "Cash"], some ∅⟩]⟩, [⟨"Asset:Cash", ∅, coins⟩]⟩]

theorem oneLine_swapEntries : ∀ entry ∈ swapEntries, entry.OneLine := by
  have each : ∀ entry ∈ swapEntries, '\n' ∉ entry.transaction.description.toList ∧
      (∀ line ∈ entry.lines, '\n' ∉ line.account.toList) ∧
      ∀ line ∈ entry.lines, ∀ commodity ∈ line.change.keys ++ line.total.keys,
        '\n' ∉ commodity.name.toList := by decide +kernel
  exact fun entry member => ⟨(each entry member).1, (each entry member).2.1, (each entry member).2.2⟩

theorem fits_swapEntries : ∀ entry ∈ swapEntries, Renderer.Fits ⟨2, 8⟩ entry := by
  have each : ∀ entry ∈ swapEntries, entry.transaction.header.length ≤ 64 ∧
      (∀ line ∈ entry.lines, line.account.length ≤ 50) ∧
      ∀ line ∈ entry.lines, ∀ amount ∈ line.change.entries,
        (Renderer.shownAmount ⟨2, 8⟩ amount).length = 8 := by decide +kernel
  exact fun entry member => ⟨(each entry member).1, (each entry member).2.1, (each entry member).2.2⟩

theorem swap_shows_amounts_once :
    swap.register .assets = .ok swapEntries ∧
    (∀ entry ∈ swapEntries, entry.lines ≠ []) ∧
    (∀ entry ∈ swapEntries, entry.OneLine) ∧ (∀ entry ∈ swapEntries, Renderer.Fits ⟨2, 8⟩ entry) ∧
    ∃ rows : List RegisterRow,
      (Renderer.register ⟨2, 8⟩ swapEntries).toList.splitOn '\n' =
        (rows.map fun row => row.text.toList) ∧
      rows.map (·.header) = ["1970/01/01 Swap", "", "1970/01/01 Note", ""] ∧
      rows.map (·.change) = ["2.50 BTC", "  $-1.00", "        ", "        "] ∧
      ∀ row ∈ rows, row.StandsIn 8 row.text.toList := by
  have registered : swap.register .assets = .ok swapEntries := rfl
  have postings := lines_ne_nil_of_register registered
  obtain ⟨table, shown, _, lines, places⟩ :=
    Renderer.register_shows_amounts_once ⟨2, 8⟩ postings
  obtain _ | ⟨⟨_ | ⟨bought, _ | _⟩, header⟩, _ | ⟨⟨_ | ⟨noted, _ | _⟩, header'⟩, _ | _⟩⟩ := shown
  refine ⟨registered, postings, oneLine_swapEntries, fits_swapEntries, _,
    lines (List.cons_ne_nil _ _) oneLine_swapEntries, ?_, ?_, places fits_swapEntries⟩
  · have two := bought.count.trans (by decide : _ = 2)
    have two' := noted.count.trans (by decide : _ = 2)
    simp only [List.flatten_cons, List.flatten_nil, List.append_nil, List.cons_append,
      List.nil_append] at header header' ⊢
    rw [List.map_append, header, header', two, two']
    decide +kernel
  · simp only [List.flatten_cons, List.flatten_nil, List.append_nil, List.cons_append,
      List.nil_append]
    rw [List.map_append, bought.changes, noted.changes, bought.count, noted.count]
    decide +kernel

end Journal

end DoubleEntry

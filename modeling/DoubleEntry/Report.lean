import DoubleEntry.Register

/-! Reports on a journal as text: balances, registers and transactions. -/

namespace DoubleEntry

/-- The rollups of accounts, and of everything. -/
structure BalanceReport where
  entries : List AccountRow
  total : Balance

def BalanceReport.ofAccount (account : Account) : BalanceReport :=
  ⟨account.rows.tail, account.rollup⟩

def Journal.balanceReport [PatternEngine] (journal : Journal) (query : Query) :
    Except BalanceError BalanceReport :=
  (journal.accountTree query).toExcept.map .ofAccount

/-- How amounts are shown: how many decimal places, and in a column of what width. -/
structure Renderer where
  places : Nat
  width : Nat

namespace Renderer

/-- The amounts of a balance, one to a line. -/
def amounts (renderer : Renderer) (balance : Balance) : List String :=
  (balance.texts renderer.places).map (Text.padLeft renderer.width)

/-- The amounts of a balance, one to a line; a zero for an empty one. -/
def amountsOrZero (renderer : Renderer) (balance : Balance) : List String :=
  if balance.entries.isEmpty then [Text.padLeft renderer.width "0"] else renderer.amounts balance

/-- The lines of an account: its amounts, the last one with the name behind it. -/
def balanceLines (renderer : Renderer) (row : AccountRow) : List String :=
  let amounts := renderer.amountsOrZero row.rollup
  let name := String.join (List.replicate row.depth "  ") ++ row.name
  amounts.dropLast ++ (amounts.getLast?.map (· ++ name)).toList

/-- A balance report: the accounts, a rule, and the amounts of the total. -/
def balance (renderer : Renderer) (report : BalanceReport) : String :=
  Text.joinLines (report.entries.flatMap renderer.balanceLines ++
    [String.ofList (List.replicate 20 '-')] ++ renderer.amountsOrZero report.total)

/-- The text of a column at a line: blanks once the column has ended. -/
def cell (renderer : Renderer) (column : List String) (index : Nat) : String :=
  column[index]?.getD (Text.blanks renderer.width)

/-- The lines of a posting in a register: one for each amount of the change or of the total,
whichever has more. Header and account stand on the first of them. -/
def registerLines (renderer : Renderer) (header : String) (line : RegisterLine) : List String :=
  let changes := renderer.amounts line.change
  let totals := renderer.amountsOrZero line.total
  (List.range (max changes.length totals.length)).map fun index =>
    let left := if index == 0 then (header, line.account) else ("", "")
    " ".intercalate [Text.padRight 64 left.1, Text.padRight 50 left.2,
      renderer.cell changes index, renderer.cell totals index]

/-- The lines of an entry of a register. The header stands on the first one. -/
def entryLines (renderer : Renderer) (entry : RegisterEntry) : List String :=
  (entry.lines.mapIdx fun index line =>
    renderer.registerLines (if index == 0 then entry.transaction.header else "") line).flatten

/-- A register: header, account, change and running total. -/
def register (renderer : Renderer) (entries : List RegisterEntry) : String :=
  Text.joinLines (entries.flatMap renderer.entryLines)

end Renderer

def printTransactions (transactions : List Transaction) : String :=
  "\n\n".intercalate (transactions.map Transaction.text)

end DoubleEntry

import DoubleEntry.Balance

/-! Account trees. Each account has the balance of its own postings and a rollup, which adds those
of all accounts below it. -/

namespace DoubleEntry

/-- Accounts side by side, in order of their names, each with the accounts below it. -/
inductive Forest where
  | nil
  | cons (name : String) (own rollup : Balance) (below : Forest) (rest : Forest)

/-- An account without its name. -/
@[ext]
structure Account where
  own : Balance := ∅
  rollup : Balance := ∅
  below : Forest := .nil

/-- Accounts with their names, side by side. -/
def Forest.ofAccounts : List (String × Account) → Forest
  | [] => nil
  | (name, account) :: rest => cons name account.own account.rollup account.below (ofAccounts rest)

/-- A line of the account tree: how deep it is, the names that lead to it from the line above it,
and its rollup. -/
structure AccountRow where
  depth : Nat
  name : String
  rollup : Balance
  deriving DecidableEq

/-- The rows of the accounts in order, each before those below it. An account with exactly one
account below it shares the row of that one, with a colon between the names; `label` is what the
names start with. -/
def Forest.rows (depth : Nat) (label : String) : Forest → List AccountRow
  | nil => []
  | cons name _ rollup below rest =>
    let label' := label ++ name
    let here := match below with
      | cons _ _ _ _ nil => below.rows depth (label' ++ ":")
      | _ => ⟨depth, label', rollup⟩ :: below.rows (depth + 1) ""
    here ++ rest.rows depth label

/-- The rows of a tree: the whole without a name, then its accounts. -/
def Account.rows (account : Account) : List AccountRow :=
  ⟨0, "", account.rollup⟩ :: account.below.rows 1 ""

end DoubleEntry

import DoubleEntry.Proofs.AccountTree.Posting

/-! The rows of an account tree one at a time. A walk keeps the accounts that are still to be shown
on a stack. Each call takes the next one off it, goes down as long as there is exactly one account
below, and puts the accounts below the last of them on top. The calls give the rows of the tree one
after the other, and then nothing. -/

namespace DoubleEntry

/-- Goes down as long as there is exactly one account below, and joins the names on the way. -/
def Forest.followOnly (name : String) (own rollup : Balance) : Forest → Account × String
  | .cons only own rollup below .nil => below.followOnly (name ++ ":" ++ only) own rollup
  | below => (⟨own, rollup, below⟩, name)

namespace Account

/-- An account that is still to be shown, with the depth of its row and what its name starts with.
-/
structure Waiting where
  account : Account
  depth : Nat
  name : String

namespace Waiting

/-- The account that the row shows, and the name of the row. The whole is always shown itself. -/
def shown (waiting : Waiting) : Account × String :=
  if waiting.depth = 0 then (waiting.account, waiting.name)
  else waiting.account.below.followOnly waiting.name waiting.account.own waiting.account.rollup

def row (waiting : Waiting) : AccountRow :=
  ⟨waiting.depth, waiting.shown.2, waiting.shown.1.rollup⟩

/-- The accounts to be shown after the row. -/
def next (waiting : Waiting) : List Waiting :=
  waiting.shown.1.below.accounts.map fun sub => ⟨sub.2, waiting.depth + 1, sub.1⟩

end Waiting

/-- A walk over a tree, the account to be shown next on top of the stack. -/
structure Walk where
  stack : List Waiting

def walk (tree : Account) : Walk := ⟨[⟨tree, 0, ""⟩]⟩

/-- The next row, and the walk behind it. The accounts below are put on the stack from the last to
the first. -/
def Walk.next? (walk : Walk) : Option (AccountRow × Walk) :=
  match walk.stack with
  | [] => none
  | waiting :: later =>
    some (waiting.row, ⟨waiting.next.reverse.foldl (fun stack sub => sub :: stack) later⟩)

/-- The row that the `n`th call gives, counted from zero. -/
def Walk.item : Nat → Walk → Option AccountRow
  | 0, walk => walk.next?.map Prod.fst
  | n + 1, walk => walk.next?.bind fun given => item n given.2

end Account

namespace Forest

def rowsOf (depth : Nat) (name : String) (account : Account) : List AccountRow :=
  (cons name account.own account.rollup account.below nil).rows depth ""

theorem rows_cons (name : String) (own rollup : Balance) (below rest : Forest) (depth : Nat)
    (label : String) :
    (cons name own rollup below rest).rows depth label =
      rowsOf depth (label ++ name) ⟨own, rollup, below⟩ ++ rest.rows depth label := by
  cases below with
  | nil => simp [rowsOf, rows]
  | cons _ _ _ _ beside => cases beside <;> simp [rowsOf, rows]

theorem rows_eq_flatMap (forest : Forest) (depth : Nat) :
    forest.rows depth "" = forest.accounts.flatMap fun sub => rowsOf depth sub.1 sub.2 := by
  induction forest with
  | nil => rfl
  | cons name own rollup below rest _ ih =>
    rw [rows_cons, ih, accounts, List.flatMap_cons, String.empty_append]

/-- The first row shows the account behind all those that are only accounts, and the rows below that
account follow. -/
theorem rowsOf_eq (depth : Nat) (name : String) (account : Account) :
    rowsOf depth name account =
      let shown := account.below.followOnly name account.own account.rollup
      ⟨depth, shown.2, shown.1.rollup⟩ :: shown.1.below.rows (depth + 1) "" := by
  obtain ⟨own, rollup, below⟩ := account
  induction below generalizing name own rollup with
  | nil => simp [rowsOf, rows, followOnly]
  | cons only onlyOwn onlyRollup below rest ih _ =>
    cases rest with
    | nil =>
      have shared : rowsOf depth name ⟨own, rollup, cons only onlyOwn onlyRollup below nil⟩ =
          (cons only onlyOwn onlyRollup below nil).rows depth (name ++ ":") := by
        simp [rowsOf, rows]
      rw [shared, rows_cons, ih, rows, List.append_nil, followOnly]
    | cons => simp [rowsOf, rows, followOnly]

end Forest

namespace Account

def Waiting.rows (waiting : Waiting) : List AccountRow :=
  waiting.row :: waiting.shown.1.below.rows (waiting.depth + 1) ""

theorem Waiting.flatMap_next (waiting : Waiting) :
    waiting.next.flatMap rows = waiting.shown.1.below.rows (waiting.depth + 1) "" := by
  rw [Forest.rows_eq_flatMap, next, List.flatMap_map]
  refine List.flatMap_congr fun sub _ => ?_
  rw [Forest.rowsOf_eq]
  rfl

namespace Walk

/-- The rows that a walk has still to give. -/
def remaining (walk : Walk) : List AccountRow := walk.stack.flatMap Waiting.rows

theorem remaining_walk (tree : Account) : tree.walk.remaining = tree.rows := by
  rw [remaining, walk, List.flatMap_cons, List.flatMap_nil, List.append_nil]
  rfl

theorem remaining_eq (walk : Walk) :
    walk.remaining =
      walk.next?.elim [] fun given => given.1 :: given.2.remaining := by
  obtain ⟨stack⟩ := walk
  cases stack with
  | nil => rfl
  | cons waiting later =>
    have onTop : waiting.next.reverse.foldl (fun stack sub => sub :: stack) later =
        waiting.next ++ later := by simp
    rw [next?, Option.elim_some, onTop, remaining, remaining, List.flatMap_cons, Waiting.rows,
      List.flatMap_append, Waiting.flatMap_next, List.cons_append]

/-- The calls give the rows that remain one by one, and then nothing. -/
theorem item_eq_getElem? (walk : Walk) (n : Nat) : walk.item n = walk.remaining[n]? := by
  induction n generalizing walk with
  | zero =>
    rw [item, remaining_eq]
    cases walk.next? <;> rfl
  | succ n ih =>
    rw [item, remaining_eq]
    cases walk.next? with
    | none => rfl
    | some given => exact ih given.2

theorem item_walk (tree : Account) (n : Nat) : tree.walk.item n = tree.rows[n]? := by
  rw [item_eq_getElem?, remaining_walk]

end Walk

end Account

end DoubleEntry

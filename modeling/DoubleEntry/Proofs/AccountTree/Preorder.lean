import DoubleEntry.Proofs.AccountTree.Figures
import DoubleEntry.Proofs.AccountTree.Rows
import DoubleEntry.Proofs.AccountTree.Walk

/-! Which rows an account tree has. The accounts without exactly one account below them have a row
each, in the order of their paths, an account before those below it. A row is as deep as there are
forks above it, and is named from the last of them on. -/

namespace DoubleEntry

namespace Forest

variable {forest : Forest} {path : List String}

/-- The paths of the accounts that have a row, in the order of the rows. -/
def rowPaths : Forest → List (List String)
  | nil => []
  | cons name _ _ below rest =>
    let here := if below.accounts.length = 1 then below.rowPaths else [] :: below.rowPaths
    here.map (name :: ·) ++ rest.rowPaths

theorem exists_name_of_mem_rowPaths (member : path ∈ forest.rowPaths) :
    ∃ name ∈ forest.names, ∃ deeper, path = name :: deeper := by
  induction forest with
  | nil => cases member
  | cons here own rollup below rest _ restIH =>
    rcases List.mem_append.mp member with first | later
    · obtain ⟨deeper, _, rfl⟩ := List.mem_map.mp first
      exact ⟨here, List.mem_cons_self .., deeper, rfl⟩
    · obtain ⟨name, inside, deeper, rfl⟩ := restIH later
      exact ⟨name, List.mem_cons_of_mem _ inside, deeper, rfl⟩

theorem ne_nil_of_mem_rowPaths (member : path ∈ forest.rowPaths) : path ≠ [] := by
  obtain ⟨name, _, deeper, rfl⟩ := exists_name_of_mem_rowPaths member
  exact List.cons_ne_nil name deeper

theorem two_le_of_mem_rowPaths (notOne : forest.accounts.length ≠ 1)
    (member : path ∈ forest.rowPaths) : 2 ≤ forest.accounts.length := by
  obtain ⟨name, inside, _⟩ := exists_name_of_mem_rowPaths member
  have something : 0 < forest.names.length := List.length_pos_of_mem inside
  rw [names, List.length_map] at something
  omega

theorem compare_cons_self (name : String) (first second : List String) :
    compare (name :: first) (name :: second) = compare first second := by
  rw [List.compare_cons_cons, Std.ReflOrd.compare_self, Ordering.eq_then]

theorem Ordered.sorted_rowPaths (ordered : forest.Ordered) :
    forest.rowPaths.Pairwise fun first second => compare first second = .lt := by
  induction forest with
  | nil => exact .nil
  | cons here own rollup below rest belowIH restIH =>
    obtain ⟨before, belowOrdered, restOrdered⟩ := ordered
    refine List.pairwise_append.mpr ⟨?_, restIH restOrdered, ?_⟩
    · simp only [List.pairwise_map, compare_cons_self]
      split
      · exact belowIH belowOrdered
      · refine List.pairwise_cons.mpr ⟨fun path member => ?_, belowIH belowOrdered⟩
        obtain ⟨name, _, deeper, rfl⟩ := exists_name_of_mem_rowPaths member
        rfl
    · intro first inside second later
      obtain ⟨deeper, _, rfl⟩ := List.mem_map.mp inside
      obtain ⟨name, member, deeper', rfl⟩ := exists_name_of_mem_rowPaths later
      rw [List.compare_cons_cons, before name member, Ordering.lt_then]

end Forest

namespace Account

variable {tree : Account} {path : List String} {name : String}

/-- There is an account at a path, and not exactly one account below it. -/
def HasRow (tree : Account) (path : List String) : Prop :=
  ∃ account, tree.find? path = some account ∧ account.below.accounts.length ≠ 1

theorem hasRow_nil : tree.HasRow [] ↔ tree.below.accounts.length ≠ 1 := by
  simp [HasRow]

theorem hasRow_cons :
    tree.HasRow (name :: path) ↔ ∃ sub, tree.below.find? name = some sub ∧ sub.HasRow path := by
  simp only [HasRow, find?_cons, Option.bind_eq_some_iff]
  constructor
  · rintro ⟨account, ⟨sub, found, deeper⟩, several⟩
    exact ⟨sub, found, account, deeper, several⟩
  · rintro ⟨sub, found, account, deeper, several⟩
    exact ⟨account, ⟨sub, found, deeper⟩, several⟩

end Account

namespace Forest

theorem mem_rowPaths_cons {here name : String} {own rollup : Balance} {below rest : Forest}
    {path : List String} :
    name :: path ∈ (cons here own rollup below rest).rowPaths ↔
      (name = here ∧ (path = [] ∧ below.accounts.length ≠ 1 ∨ path ∈ below.rowPaths)) ∨
        name :: path ∈ rest.rowPaths := by
  rw [rowPaths, List.mem_append]
  have mapped (paths : List (List String)) :
      name :: path ∈ paths.map (here :: ·) ↔ name = here ∧ path ∈ paths := by
    simp [and_comm, eq_comm]
  by_cases single : below.accounts.length = 1 <;> simp [mapped, single, and_or_left]

/-- The paths are those of the accounts that have a row. -/
theorem Ordered.mem_rowPaths_iff {forest : Forest} (ordered : forest.Ordered) {name : String}
    {path : List String} :
    name :: path ∈ forest.rowPaths ↔ ∃ sub, forest.find? name = some sub ∧ sub.HasRow path := by
  induction forest generalizing name path with
  | nil => simp [rowPaths, Forest.find?]
  | cons here own rollup below rest belowIH restIH =>
    have elsewhere : name :: path ∈ rest.rowPaths ↔ _ := restIH ordered.2.2
    rw [mem_rowPaths_cons, elsewhere]
    by_cases same : name = here
    · subst same
      have inside : path = [] ∧ below.accounts.length ≠ 1 ∨ path ∈ below.rowPaths ↔
          Account.HasRow ⟨own, rollup, below⟩ path := by
        cases path with
        | nil =>
          rw [Account.hasRow_nil, or_iff_left fun member => ne_nil_of_mem_rowPaths member rfl,
            and_iff_right rfl]
        | cons next path => rw [Account.hasRow_cons, belowIH ordered.2.1]; simp
      simp [inside, ordered.find?_rest, Forest.find?]
    · simp [same, Forest.find?]

end Forest

namespace Account

variable {tree sub : Account} {path : List String} {name : String}

/-- The accounts above the one at a path, without the whole, that have several directly below them.
-/
def forks (tree : Account) (path : List String) : List (List String) :=
  path.inits.filter fun above =>
    above ≠ [] ∧ above ≠ path ∧ 2 ≤ (tree.accountAt above).below.accounts.length

def rowOf (tree : Account) (path : List String) : AccountRow where
  depth := 1 + (tree.forks path).length
  name := ":".intercalate (path.drop ((tree.forks path).getLastD []).length)
  rollup := (tree.accountAt path).rollup

/-- The row of the account at a path in a tree at some depth, where names start with `label` up to
the first fork. -/
def rowFrom (tree : Account) (depth : Nat) (label : String) (path : List String) : AccountRow where
  depth := depth + (tree.forks path).length
  name := (if tree.forks path = [] then label else "") ++
    ":".intercalate (path.drop ((tree.forks path).getLastD []).length)
  rollup := (tree.accountAt path).rollup

theorem rowFrom_one (tree : Account) (path : List String) :
    tree.rowFrom 1 "" path = tree.rowOf path := by
  simp [rowFrom, rowOf]

theorem accountAt_of_find? (found : tree.below.find? name = some sub) (path : List String) :
    tree.accountAt (name :: path) = sub.accountAt path := by
  rw [accountAt_cons, found, Option.getD_some]

theorem forks_singleton (tree : Account) (name : String) : tree.forks [name] = [] := by
  simp [forks]

theorem forks_cons (found : tree.below.find? name = some sub) (deeper : path ≠ []) :
    tree.forks (name :: path) =
      (if 2 ≤ sub.below.accounts.length then [[name]] else []) ++
        (sub.forks path).map (name :: ·) := by
  have above (upper : List String) : (tree.accountAt (name :: upper)).below.accounts.length =
      (sub.accountAt upper).below.accounts.length := by rw [accountAt_of_find? found]
  cases path with
  | nil => exact absurd rfl deeper
  | cons next path =>
    simp only [forks, List.inits_cons, List.map_cons, List.filter_cons, List.filter_map]
    by_cases several : 2 ≤ sub.below.accounts.length <;>
      simp [several, above, Function.comp_def]

theorem rowFrom_singleton (found : tree.below.find? name = some sub) (depth : Nat)
    (label : String) : tree.rowFrom depth label [name] = ⟨depth, label ++ name, sub.rollup⟩ := by
  simp [rowFrom, forks_singleton, accountAt_of_find? found]

/-- Below an account that shares its row the names go on. -/
theorem rowFrom_cons_of_single (found : tree.below.find? name = some sub)
    (single : sub.below.accounts.length = 1) (deeper : path ≠ []) (depth : Nat)
    (label : String) :
    tree.rowFrom depth label (name :: path) =
      sub.rowFrom depth (label ++ name ++ ":") path := by
  have sameForks : tree.forks (name :: path) = (sub.forks path).map (name :: ·) := by
    rw [forks_cons found deeper, single]
    rfl
  rw [rowFrom, rowFrom, sameForks, accountAt_of_find? found]
  rcases List.eq_nil_or_concat (sub.forks path) with forks | ⟨early, last, forks⟩
  · simp [forks, String.intercalate_cons_of_ne_nil deeper, String.append_assoc]
  · simp [forks]

/-- Below a fork the names start again, one level deeper. -/
theorem rowFrom_cons_of_several (found : tree.below.find? name = some sub)
    (several : 2 ≤ sub.below.accounts.length) (deeper : path ≠ []) (depth : Nat)
    (label : String) :
    tree.rowFrom depth label (name :: path) = sub.rowFrom (depth + 1) "" path := by
  have oneMore : tree.forks (name :: path) = [name] :: (sub.forks path).map (name :: ·) := by
    rw [forks_cons found deeper, if_pos several]
    rfl
  rw [rowFrom, rowFrom, oneMore, accountAt_of_find? found]
  rcases List.eq_nil_or_concat (sub.forks path) with forks | ⟨early, last, forks⟩
  · simp [forks]
  · simp [forks, List.getLast?_cons, Nat.add_right_comm depth 1, Nat.add_assoc]

end Account

namespace Forest

theorem rows_eq_map {tree : Account} {forest : Forest} (ordered : tree.below.Ordered)
    (within : ∀ sub ∈ forest.accounts, tree.below.find? sub.1 = some sub.2) (depth : Nat)
    (label : String) :
    forest.rows depth label = forest.rowPaths.map (tree.rowFrom depth label) := by
  induction forest generalizing tree depth label with
  | nil => rfl
  | cons name own rollup below rest belowIH restIH =>
    let sub : Account := ⟨own, rollup, below⟩
    have found : tree.below.find? name = some sub := within (name, sub) (List.mem_cons_self ..)
    have belowOrdered : sub.below.Ordered := ordered.find? found
    have later := restIH ordered (fun sub member => within sub (List.mem_cons_of_mem _ member))
    have inner (depth : Nat) (label : String) :
        below.rows depth label = below.rowPaths.map (sub.rowFrom depth label) :=
      belowIH belowOrdered (fun sub member => belowOrdered.find?_of_mem member) depth label
    unfold rows rowPaths
    rw [List.map_append, List.map_map, ← later]
    refine congrArg (· ++ rest.rows depth label) ?_
    by_cases single : below.accounts.length = 1
    · obtain ⟨only, onlyOwn, onlyRollup, deeper, rfl⟩ := length_accounts_eq_one_iff.mp single
      rw [if_pos single]
      refine (inner depth _).trans (List.map_congr_left fun path member => ?_)
      exact (Account.rowFrom_cons_of_single found single (ne_nil_of_mem_rowPaths member)
        depth label).symm
    · have own : (⟨depth, label ++ name, rollup⟩ : AccountRow) =
          tree.rowFrom depth label [name] :=
        (Account.rowFrom_singleton found depth label).symm
      rw [if_neg single, List.map_cons]
      split
      case h_1 => exact absurd rfl single
      case h_2 =>
        rw [inner, own]
        refine congrArg (_ :: ·) (List.map_congr_left fun path member => ?_)
        exact (Account.rowFrom_cons_of_several found (two_le_of_mem_rowPaths single member)
          (ne_nil_of_mem_rowPaths member) depth label).symm

end Forest

namespace Account

/-- A tree that amounts are added to one after the other. A sum that is too large leaves an addition
halfway, and others may follow it. -/
inductive Reachable : Account → Prop
  | empty : Reachable {}
  | post {tree : Account} (reachable : Reachable tree) (commodity : Commodity) (amount : Decimal)
    (path : List String) : Reachable (tree.post commodity amount path).state

theorem Reachable.ordered {tree : Account} (reachable : tree.Reachable) : tree.below.Ordered := by
  induction reachable with
  | empty => trivial
  | post _ _ _ _ ih => exact ordered_post ih

/-- The rows of a tree are the whole, without a name, and then the rows of the accounts that do not
have exactly one account directly below them, in the order of their paths. Paths are ordered name by
name, one before those that go on behind it. A walk over the tree gives these rows one by one, and
then nothing. -/
theorem rows_preorder {tree : Account} (reachable : tree.Reachable) :
    (∀ n, tree.walk.item n = tree.rows[n]?) ∧
    ∃ paths : List (List String),
      (paths.Pairwise fun first second => compare first second = .lt) ∧
      (∀ path, path ∈ paths ↔ path ≠ [] ∧
        ∃ account, tree.find? path = some account ∧ account.below.accounts.length ≠ 1) ∧
      tree.rows = ⟨0, "", tree.rollup⟩ :: paths.map tree.rowOf := by
  have ordered := reachable.ordered
  refine ⟨Walk.item_walk tree, tree.below.rowPaths, ordered.sorted_rowPaths, fun path => ?_, ?_⟩
  · cases path with
    | nil => exact iff_of_false (fun member => Forest.ne_nil_of_mem_rowPaths member rfl) (by simp)
    | cons name path =>
      rw [ordered.mem_rowPaths_iff, ← hasRow_cons, and_iff_right (List.cons_ne_nil name path),
        HasRow]
  · have within : ∀ sub ∈ tree.below.accounts, tree.below.find? sub.1 = some sub.2 :=
      fun sub member => ordered.find?_of_mem member
    rw [rows, Forest.rows_eq_map ordered within 1 ""]
    exact congrArg _ (List.map_congr_left fun path _ => rowFrom_one tree path)

/-- Accounts at a bank, one of them below an account that has nothing else below it, and coins. The
last amount is too large for the rollup of the bank and stops there. -/
def bankAndCoins : Account :=
  let dollars : Commodity := ⟨"$", true⟩
  let post (path : List String) (amount : Decimal) (tree : Account) : Account :=
    (tree.post dollars amount path).state
  post ["Bank", "Card"] (.spelled "79228162514264337593543950335")
    (post ["Cash", "Box", "Coins"] (.spelled "-20") (post ["Bank", "Giro", "Main"] (.spelled "10")
      (post ["Bank", "Card"] (.spelled "2.5") (post ["Bank"] (.spelled "1") {}))))

theorem rows_preorder_bankAndCoins :
    bankAndCoins.Reachable ∧
    (bankAndCoins.rows.map fun row => (row.depth, row.name)) =
      [(0, ""), (1, "Bank"), (2, "Card"), (2, "Giro:Main"), (1, "Cash:Box:Coins")] ∧
    (∀ n, bankAndCoins.walk.item n = bankAndCoins.rows[n]?) ∧
    ∃ paths : List (List String),
      (paths.Pairwise fun first second => compare first second = .lt) ∧
      (∀ path, path ∈ paths ↔ path ≠ [] ∧ ∃ account,
        bankAndCoins.find? path = some account ∧ account.below.accounts.length ≠ 1) ∧
      bankAndCoins.rows = ⟨0, "", bankAndCoins.rollup⟩ :: paths.map bankAndCoins.rowOf := by
  have reachable : bankAndCoins.Reachable :=
    ((((Reachable.empty.post _ _ _).post _ _ _).post _ _ _).post _ _ _).post _ _ _
  exact ⟨reachable, by decide +kernel, rows_preorder reachable⟩

end Account

end DoubleEntry

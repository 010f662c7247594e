import DoubleEntry.AccountArena
import DoubleEntry.Proofs.AccountTree.Posting

/-! The accounts of an arena. From the first node every node is reached on one path, and what a node
stands for depends on nothing but the nodes that are reached from it. -/

namespace DoubleEntry

namespace Forest

variable {forest other : Forest} {accounts : List (String × Account)}

theorem ofAccounts_accounts (forest : Forest) : ofAccounts forest.accounts = forest := by
  induction forest with
  | nil => rfl
  | cons name own rollup below rest _ ih => rw [Forest.accounts, ofAccounts, ih]

theorem accounts_ofAccounts (accounts : List (String × Account)) :
    (ofAccounts accounts).accounts = accounts := by
  induction accounts with
  | nil => rfl
  | cons first rest ih => rw [ofAccounts, Forest.accounts, ih]

theorem find?_eq_valueIn? (forest : Forest) (name : String) :
    forest.find? name = SortedMap.valueIn? name forest.accounts := by
  induction forest with
  | nil => rfl
  | cons here own rollup below rest _ ih =>
    rw [find?, Forest.accounts, SortedMap.valueIn?, ih]
    by_cases same : name = here
    · simp [same]
    · simp [same, mt Std.LawfulEqOrd.eq_of_compare same]

theorem Ordered.sorted (ordered : forest.Ordered) :
    forest.accounts.Pairwise fun a b => compare a.1 b.1 = .lt := by
  induction forest with
  | nil => exact .nil
  | cons name own rollup below rest _ ih =>
    apply List.pairwise_cons.mpr
    constructor
    · intro entry member
      exact ordered.1 entry.1 (List.mem_map_of_mem member)
    · exact ih ordered.2.2

theorem ordered_ofAccounts (sorted : accounts.Pairwise fun a b => compare a.1 b.1 = .lt)
    (below : ∀ entry ∈ accounts, entry.2.below.Ordered) : (ofAccounts accounts).Ordered := by
  induction accounts with
  | nil => trivial
  | cons first rest ih =>
    obtain ⟨least, later⟩ := List.pairwise_cons.mp sorted
    obtain ⟨here, inRest⟩ := List.forall_mem_cons.mp below
    refine ⟨fun name member => ?_, here, ih later inRest⟩
    rw [names, accounts_ofAccounts] at member
    obtain ⟨entry, inside, rfl⟩ := List.mem_map.mp member
    exact least entry inside

/-- Accounts in order are determined by what is found under each name. -/
theorem Ordered.ext_find? (ordered : forest.Ordered) (ordered' : other.Ordered)
    (same : ∀ name, forest.find? name = other.find? name) : forest = other := by
  have maps : (⟨forest.accounts, ordered.sorted⟩ : SortedMap String Account) =
      ⟨other.accounts, ordered'.sorted⟩ := by
    apply SortedMap.ext_find?
    intro name
    rw [SortedMap.find?, SortedMap.find?, ← find?_eq_valueIn?, ← find?_eq_valueIn?, same]
  rw [← ofAccounts_accounts forest, ← ofAccounts_accounts other]
  exact congrArg (fun map => ofAccounts map.entries) maps

end Forest

namespace Arena

variable {arena other : Arena} {start parent child index : Nat} {name : String}
  {path path' : List String}

/-- The index that a path leads to from another one. -/
def findFrom (arena : Arena) (start : Nat) (path : List String) : Option Nat :=
  path.foldlM arena.child? start

/-- An index that some path leads to. -/
def Below (arena : Arena) (start index : Nat) : Prop :=
  ∃ path, arena.findFrom start path = some index

@[simp] theorem findFrom_nil (arena : Arena) (start : Nat) :
    arena.findFrom start [] = some start := rfl

theorem findFrom_cons (arena : Arena) (start : Nat) (name : String) (path : List String) :
    arena.findFrom start (name :: path) =
      (arena.child? start name).bind fun child => arena.findFrom child path := rfl

theorem findFrom_concat (arena : Arena) (start : Nat) (path : List String) (name : String) :
    arena.findFrom start (path ++ [name]) =
      (arena.findFrom start path).bind fun parent => arena.child? parent name := by
  rw [findFrom, List.foldlM_append]
  apply congrArg
  funext parent
  exact bind_pure _

theorem Below.refl (arena : Arena) (start : Nat) : arena.Below start start := ⟨[], rfl⟩

theorem Below.of_child (found : arena.child? parent name = some child)
    (below : arena.Below child index) : arena.Below parent index := by
  obtain ⟨path, reached⟩ := below
  exact ⟨name :: path, by rw [findFrom_cons, found, Option.bind_some, reached]⟩

theorem Below.le (below : arena.Below start index) : start ≤ index := by
  obtain ⟨path, found⟩ := below
  induction path generalizing start with
  | nil =>
    cases found
    exact Nat.le_refl _
  | cons name path ih =>
    obtain ⟨child, first, rest⟩ := Option.bind_eq_some_iff.mp found
    exact (arena.linked.later first).le.trans (ih rest)

theorem Below.inside (below : arena.Below start index) (inside : start < arena.nodes.size) :
    index < arena.nodes.size := by
  obtain ⟨path, found⟩ := below
  induction path generalizing start with
  | nil =>
    cases found
    exact inside
  | cons name path ih =>
    obtain ⟨child, first, rest⟩ := Option.bind_eq_some_iff.mp found
    exact ih (arena.linked.inside first) rest

/-- Only one path leads from a node to another one. The induction is on the last step, which is the
same by the single link to a node. -/
theorem findFrom_unique (found : arena.findFrom start path = some index)
    (found' : arena.findFrom start path' = some index) : path = path' := by
  have stepped {front : List String} {name : String} {last : Nat}
      (reached : arena.findFrom start (front ++ [name]) = some last) :
      ∃ parent, arena.findFrom start front = some parent ∧
        arena.child? parent name = some last ∧ start < last := by
    rw [findFrom_concat] at reached
    obtain ⟨parent, before, link⟩ := Option.bind_eq_some_iff.mp reached
    exact ⟨parent, before, link, Below.le ⟨front, before⟩ |>.trans_lt (arena.linked.later link)⟩
  induction path using List.reverseRecOn generalizing index path' with
  | nil =>
    cases found
    cases path' using List.reverseRecOn with
    | nil => rfl
    | append_singleton front name =>
      obtain ⟨_, _, _, beyond⟩ := stepped found'
      exact absurd beyond (Nat.lt_irrefl start)
  | append_singleton front name ih =>
    obtain ⟨parent, before, link, beyond⟩ := stepped found
    cases path' using List.reverseRecOn with
    | nil =>
      cases found'
      exact absurd beyond (Nat.lt_irrefl start)
    | append_singleton front' name' =>
      obtain ⟨parent', before', link', _⟩ := stepped found'
      obtain ⟨rfl, rfl⟩ := arena.linked.oneParent link link'
      rw [ih before before']

/-- What is below one of two nodes that hang side by side is not below the other. -/
theorem not_below_sibling {first second : Nat} {next : String}
    (link : arena.child? parent name = some first) (link' : arena.child? parent next = some second)
    (distinct : next ≠ name) (below : arena.Below second index) : ¬ arena.Below first index := by
  rintro ⟨path, found⟩
  obtain ⟨path', found'⟩ := below
  have onFirst : arena.findFrom parent (name :: path) = some index := by
    rw [findFrom_cons, link, Option.bind_some, found]
  have onSecond : arena.findFrom parent (next :: path') = some index := by
    rw [findFrom_cons, link', Option.bind_some, found']
  exact distinct (List.cons.inj (findFrom_unique onSecond onFirst)).1

theorem exists_find? (inside : index < arena.nodes.size) : ∃ path, arena.find? path = some index := by
  induction index using Nat.strongRecOn with
  | ind index ih =>
    rcases Nat.eq_zero_or_pos index with rfl | positive
    · exact ⟨[], rfl⟩
    · obtain ⟨parent, name, link⟩ := arena.linked.hangs positive inside
      have earlier := arena.linked.later link
      obtain ⟨path, found⟩ := ih parent earlier (earlier.trans inside)
      refine ⟨path ++ [name], ?_⟩
      rw [find?, ← findFrom, findFrom_concat, findFrom, ← find?, found]
      exact link

/-! What the nodes stand for. -/

theorem Node.account_congr {node : Node} {sub sub' : Nat → Account}
    (same : ∀ entry ∈ node.below.entries, sub entry.2 = sub' entry.2) :
    node.account sub = node.account sub' := by
  rw [account, account, List.map_congr_left fun entry member => ?_]
  rw [same entry member]

theorem accountFrom_eq {nodes : List Node}
    (later : ∀ offset node, nodes[offset]? = some node →
      ∀ entry ∈ node.below.entries, start + offset < entry.2) (from_start : start ≤ index) :
    accountFrom start nodes index =
      ((nodes[index - start]?).getD {}).account (accountFrom start nodes) := by
  induction nodes generalizing start index with
  | nil => rfl
  | cons node rest ih =>
    have laterRest (offset : Nat) (other : Node) (found : rest[offset]? = some other) :
        ∀ entry ∈ other.below.entries, start + 1 + offset < entry.2 := by
      intro entry member
      have beyond := later (offset + 1) other found entry member
      omega
    have skip {beyond : Nat} (less : start < beyond) :
        accountFrom start (node :: rest) beyond = accountFrom (start + 1) rest beyond :=
      if_neg less.ne'
    rcases from_start.eq_or_lt with rfl | less
    · rw [accountFrom, if_pos rfl, Nat.sub_self]
      apply Node.account_congr
      intro entry member
      exact (skip (later 0 node rfl entry member)).symm
    · have offset : index - start = index - (start + 1) + 1 := by omega
      rw [skip less, ih laterRest less, offset, List.getElem?_cons_succ]
      apply Node.account_congr
      intro entry member
      cases found : rest[index - (start + 1)]? with
      | none =>
        rw [found] at member
        cases member
      | some other =>
        rw [found] at member
        have beyond := laterRest _ other found entry member
        exact (skip (by omega)).symm

theorem mem_entries_iff {entry : String × Nat} : entry ∈ (arena.node parent).below.entries ↔
    arena.child? parent entry.1 = some entry.2 := SortedMap.mem_entries_iff

/-- An index stands for its balances with what the indices in it stand for. -/
theorem accountOf_eq (arena : Arena) (index : Nat) :
    arena.accountOf index = (arena.node index).account arena.accountOf := by
  have later (offset : Nat) (node : Node) (found : arena.nodes.toList[offset]? = some node) :
      ∀ entry ∈ node.below.entries, 0 + offset < entry.2 := by
    intro entry member
    rw [Array.getElem?_toList] at found
    have here : arena.node offset = node := by rw [Arena.node, nodeAt, found, Option.getD_some]
    rw [← here, mem_entries_iff] at member
    rw [Nat.zero_add]
    exact arena.linked.later member
  have shown := accountFrom_eq later (Nat.zero_le index)
  rw [Nat.sub_zero, Array.getElem?_toList] at shown
  exact shown

/-- What an index stands for depends on what is reached from it. Induction on the number of nodes
behind it. -/
theorem accountOf_congr (same : ∀ index, arena.Below start index →
    other.node index = arena.node index) : other.accountOf start = arena.accountOf start := by
  induction left : arena.nodes.size - start using Nat.strongRecOn generalizing start with
  | ind left ih =>
    rw [accountOf_eq, accountOf_eq, same start (.refl arena start)]
    apply Node.account_congr
    intro entry member
    have link := mem_entries_iff.mp member
    have beyond := arena.linked.later link
    have inside := arena.linked.inside link
    apply ih (arena.nodes.size - entry.2) (by omega) _ rfl
    intro index below
    exact same index (below.of_child link)

theorem ordered_accountOf (arena : Arena) (index : Nat) :
    (arena.accountOf index).below.Ordered := by
  induction left : arena.nodes.size - index using Nat.strongRecOn generalizing index with
  | ind left ih =>
    rw [accountOf_eq]
    apply Forest.ordered_ofAccounts (List.pairwise_map.mpr (arena.node index).below.sorted)
    intro account member
    obtain ⟨entry, inEntries, rfl⟩ := List.mem_map.mp member
    have link := mem_entries_iff.mp inEntries
    have beyond := arena.linked.later link
    have inside := arena.linked.inside link
    exact ih (arena.nodes.size - entry.2) (by omega) entry.2 rfl

theorem accounts_below_accountOf (arena : Arena) (index : Nat) :
    (arena.accountOf index).below.accounts =
      (arena.node index).below.entries.map fun entry => (entry.1, arena.accountOf entry.2) := by
  rw [accountOf_eq]
  exact Forest.accounts_ofAccounts _

theorem find?_below_accountOf (arena : Arena) (index : Nat) (name : String) :
    (arena.accountOf index).below.find? name =
      (arena.child? index name).map arena.accountOf := by
  rw [Forest.find?_eq_valueIn?, accounts_below_accountOf]
  exact SortedMap.find?_mapValues (arena.node index).below arena.accountOf name

theorem find?_accountOf (arena : Arena) (start : Nat) (path : List String) :
    (arena.accountOf start).find? path = (arena.findFrom start path).map arena.accountOf := by
  induction path generalizing start with
  | nil => rfl
  | cons name path ih =>
    rw [Account.find?_cons, find?_below_accountOf, findFrom_cons]
    cases arena.child? start name with
    | none => rfl
    | some child => exact ih child

theorem find?_account (arena : Arena) (path : List String) :
    arena.account.find? path = (arena.find? path).map arena.accountOf :=
  arena.find?_accountOf 0 path

theorem rollup_accountOf (arena : Arena) (index : Nat) :
    (arena.accountOf index).rollup = (arena.node index).rollup := by
  rw [accountOf_eq]
  rfl

theorem own_accountOf (arena : Arena) (index : Nat) :
    (arena.accountOf index).own = (arena.node index).own := by
  rw [accountOf_eq]
  rfl

end Arena

end DoubleEntry

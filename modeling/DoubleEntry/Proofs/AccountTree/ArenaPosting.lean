import DoubleEntry.Proofs.AccountTree.Arena

/-! Posting in an arena is posting in the account tree that it stands for. What is posted at a node
reaches no nodes but those below it, so that the other accounts stay as they are, even if a sum on
the way is too large. -/

namespace DoubleEntry

namespace Arena.Place

variable {place : Place} {name : String} {child index : Nat} {own rollup : Balance}
  {commodity : Commodity} {amount : Decimal} {path : List String}

def account (place : Place) : Account := place.arena.accountOf place.index

theorem ordered_account (place : Place) : place.account.below.Ordered :=
  place.arena.ordered_accountOf place.index

theorem node_write (place : Place) (own rollup : Balance) (index : Nat) :
    (place.write own rollup).arena.node index =
      if index = place.index then { place.node with own, rollup } else place.arena.node index :=
  nodeAt_setIfInBounds _ place.inside _ _

theorem child?_write (place : Place) (own rollup : Balance) :
    (place.write own rollup).arena.child? = place.arena.child? := by
  funext parent name
  change ((place.write own rollup).arena.node parent).below.find? name = _
  rw [node_write]
  split
  case isTrue same =>
    rw [same]
    rfl
  case isFalse => rfl

theorem below_write : (place.write own rollup).arena.Below = place.arena.Below := by
  funext start index
  rw [Below, Below]
  simp only [findFrom, child?_write]

theorem size_write (place : Place) (own rollup : Balance) :
    (place.write own rollup).arena.nodes.size = place.arena.nodes.size :=
  Array.size_setIfInBounds

/-- What a later node stands for does not change with the balances of an earlier one. -/
theorem accountOf_write_of_lt (later : place.index < index) :
    (place.write own rollup).arena.accountOf index = place.arena.accountOf index := by
  apply accountOf_congr
  intro reached below
  rw [node_write, if_neg (later.trans_le below.le).ne']

theorem account_write (place : Place) (own rollup : Balance) :
    (place.write own rollup).account = { place.account with own, rollup } := by
  have here : (place.write own rollup).arena.node place.index = { place.node with own, rollup } := by
    rw [node_write, if_pos rfl]
  have same : (place.write own rollup).index = place.index := rfl
  rw [account, account, accountOf_eq, same, here, accountOf_eq place.arena]
  apply congrArg fun accounts => Account.mk own rollup (.ofAccounts accounts)
  apply List.map_congr_left
  intro entry member
  rw [accountOf_write_of_lt (place.arena.linked.later (mem_entries_iff.mp member))]

theorem account_postRollup : (place.postRollup commodity amount).lift account =
    place.account.postRollup commodity amount := by
  rw [postRollup, Account.postRollup, account, rollup_accountOf, Progress.lift, Progress.lift,
    Progress.lift, account_write]
  apply congrArg fun own => Progress.mk (Account.mk own _ _) _
  exact (place.arena.own_accountOf place.index).symm

theorem account_postOwn : (place.postOwn commodity amount).lift account =
    place.account.postOwn commodity amount := by
  rw [postOwn, Account.postOwn, account, own_accountOf, Progress.lift, Progress.lift,
    Progress.lift, account_write]
  apply congrArg fun rollup => Progress.mk (Account.mk _ rollup _) _
  exact (place.arena.rollup_accountOf place.index).symm

/-! Going down to an account, which may have to be opened. -/

theorem down_of_child (found : place.arena.child? place.index name = some child) :
    place.down name = ⟨place.arena, child, place.arena.linked.inside found⟩ := by
  unfold down
  split
  case h_1 other found' =>
    cases found.symm.trans found'
    rfl
  case h_2 free =>
    cases found.symm.trans free

theorem down_of_free (free : place.arena.child? place.index name = none) :
    place.down name = place.opening name free := by
  unfold down
  split
  case h_1 found =>
    cases free.symm.trans found
  case h_2 => rfl

theorem node_opening (free : place.arena.child? place.index name = none) (index : Nat) :
    (place.opening name free).arena.node index = if index = place.index then
      { place.node with below := place.node.below.insert name place.arena.nodes.size }
      else place.arena.node index := by
  have inside : place.index < (place.arena.nodes.push {}).size := by
    rw [Array.size_push]
    exact Nat.lt_succ_of_lt place.inside
  have opened := nodeAt_setIfInBounds (place.arena.nodes.push {}) inside
    { place.node with below := place.node.below.insert name place.arena.nodes.size } index
  rw [nodeAt_push_empty] at opened
  exact opened

theorem node_down_of_ne (distinct : index ≠ place.index) :
    (place.down name).arena.node index = place.arena.node index := by
  cases found : place.arena.child? place.index name with
  | some child => rw [down_of_child found]
  | none => rw [down_of_free found, node_opening, if_neg distinct]

theorem balances_down (place : Place) (name : String) :
    ((place.down name).arena.node place.index).own = place.node.own ∧
      ((place.down name).arena.node place.index).rollup = place.node.rollup := by
  cases found : place.arena.child? place.index name with
  | some child =>
    rw [down_of_child found]
    exact ⟨rfl, rfl⟩
  | none =>
    rw [down_of_free found, node_opening, if_pos rfl]
    exact ⟨rfl, rfl⟩

theorem child?_down_self (place : Place) (name : String) :
    (place.down name).arena.child? place.index name = some (place.down name).index := by
  cases found : place.arena.child? place.index name with
  | some child => rw [down_of_child found, found]
  | none =>
    rw [down_of_free found]
    change ((place.opening name found).arena.node place.index).below.find? name = _
    rw [node_opening, if_pos rfl, SortedMap.find?_insert_self]
    rfl

theorem child?_down_of_ne {parent : Nat} {other : String}
    (distinct : parent ≠ place.index ∨ other ≠ name) :
    (place.down name).arena.child? parent other = place.arena.child? parent other := by
  change ((place.down name).arena.node parent).below.find? other = _
  by_cases same : parent = place.index
  · subst same
    have distinct : other ≠ name := distinct.resolve_left fun apart => apart rfl
    cases found : place.arena.child? place.index name with
    | some child =>
      rw [down_of_child found]
      rfl
    | none =>
      rw [down_of_free found, node_opening, if_pos rfl, SortedMap.find?_insert_of_ne _ distinct]
      rfl
  · rw [node_down_of_ne same]
    rfl

theorem child?_down_of_some {parent : Nat} {other : String}
    (found : place.arena.child? parent other = some child) :
    (place.down name).arena.child? parent other = some child := by
  by_cases same : parent = place.index ∧ other = name
  · obtain ⟨rfl, rfl⟩ := same
    rw [child?_down_self, down_of_child found]
  · rw [child?_down_of_ne (not_and_or.mp same), found]

/-- What was below a node stays below it. -/
theorem below_down {start : Nat} (below : place.arena.Below start index) :
    (place.down name).arena.Below start index := by
  obtain ⟨path, found⟩ := below
  induction path generalizing start with
  | nil =>
    cases found
    exact .refl _ _
  | cons first path ih =>
    obtain ⟨child, link, rest⟩ := Option.bind_eq_some_iff.mp found
    exact (ih rest).of_child (child?_down_of_some link)

/-- Nodes that were there before and are now below the next account have always been below the
present one. -/
theorem below_of_below_down (inside : index < place.arena.nodes.size)
    (below : (place.down name).arena.Below (place.down name).index index) :
    place.arena.Below place.index index := by
  cases found : place.arena.child? place.index name with
  | some child =>
    rw [down_of_child found] at below
    exact below.of_child found
  | none =>
    rw [down_of_free found] at below
    exact absurd below.le (Nat.not_le.mpr inside)

theorem size_le_down (place : Place) (name : String) :
    place.arena.nodes.size ≤ (place.down name).arena.nodes.size := by
  cases found : place.arena.child? place.index name with
  | some child => rw [down_of_child found]
  | none =>
    have size : (place.opening name found).arena.nodes.size = place.arena.nodes.size + 1 := by
      simp [opening]
    rw [down_of_free found, size]
    exact Nat.le_succ _

/-- The next account is the one that is found under its name, and an empty one if none is. -/
theorem account_down (place : Place) (name : String) :
    (place.down name).account = (place.account.below.find? name).getD {} := by
  rw [account, account, find?_below_accountOf]
  cases found : place.arena.child? place.index name with
  | some child =>
    rw [down_of_child found]
    rfl
  | none =>
    have new : (place.opening name found).arena.node place.arena.nodes.size = {} := by
      rw [node_opening, if_neg place.inside.ne', Arena.node, nodeAt, Array.getElem?_size]
      rfl
    have index : (place.opening name found).index = place.arena.nodes.size := rfl
    rw [down_of_free found, accountOf_eq, index, new]
    rfl

/-! What a posting reaches. -/

/-- A posting to the rollup changes nothing but this balance. -/
theorem exists_postRollup (place : Place) (commodity : Commodity) (amount : Decimal) :
    ∃ here, (place.postRollup commodity amount).state = here ∧ here.index = place.index ∧
      here.arena.nodes.size = place.arena.nodes.size ∧ here.arena.Below = place.arena.Below ∧
      ∀ index ≠ place.index, here.arena.node index = place.arena.node index := by
  refine ⟨_, rfl, rfl, size_write _ _ _, below_write, ?_⟩
  intro index distinct
  exact (node_write _ _ _ index).trans (if_neg distinct)

/-- Nodes that are not below the given one stay as they are. -/
theorem node_post (inside : index < place.arena.nodes.size)
    (apart : ¬ place.arena.Below place.index index) :
    (post commodity amount path place).state.arena.node index = place.arena.node index := by
  induction path generalizing place with
  | nil =>
    have distinct : index ≠ place.index := fun same => apart (same ▸ .refl _ _)
    obtain ⟨here, hereEq, indexEq, _, _, same⟩ := place.exists_postRollup commodity amount
    rw [post, Progress.andThen, hereEq]
    split
    case h_1 =>
      rw [← same index distinct]
      exact (node_write _ _ _ index).trans (if_neg (indexEq ▸ distinct))
    case h_2 => rw [hereEq, same index distinct]
  | cons name path ih =>
    have distinct : index ≠ place.index := fun same => apart (same ▸ .refl _ _)
    obtain ⟨here, hereEq, indexEq, sizeEq, belowEq, same⟩ :=
      place.exists_postRollup commodity amount
    rw [post, Progress.andThen, hereEq]
    split
    case h_1 =>
      rw [← sizeEq] at inside
      rw [← belowEq, ← indexEq] at apart
      rw [ih (inside.trans_le (here.size_le_down name)) (mt (below_of_below_down inside) apart),
        node_down_of_ne (indexEq ▸ distinct), same index distinct]
    case h_2 => rw [hereEq, same index distinct]

/-- If nothing changes but what is below the next account, then of the present one nothing changes
but the next one. The others beside it are not reached, since only one path leads to a node. -/
theorem accountOf_of_apart {other : Arena} (place : Place) (name : String)
    (same : ∀ index < (place.down name).arena.nodes.size,
      ¬ (place.down name).arena.Below (place.down name).index index →
        other.node index = (place.down name).arena.node index) :
    other.accountOf place.index = { place.account with
      below := place.account.below.put name (other.accountOf (place.down name).index) } := by
  have link := place.child?_down_self name
  have larger := place.size_le_down name
  have beyond := (place.down name).arena.linked.later link
  have here : other.node place.index = (place.down name).arena.node place.index :=
    same place.index (place.inside.trans_le larger) fun below => absurd below.le beyond.not_ge
  obtain ⟨ownEq, rollupEq⟩ := place.balances_down name
  have links (next : String) :
      other.child? place.index next = (place.down name).arena.child? place.index next :=
    congrArg (fun node => node.below.find? next) here
  refine Account.ext ?_ ?_ ?_
  · rw [own_accountOf, here, ownEq]
    exact (own_accountOf _ _).symm
  · rw [rollup_accountOf, here, rollupEq]
    exact (rollup_accountOf _ _).symm
  · refine (other.ordered_accountOf _).ext_find?
      ((place.arena.ordered_accountOf _).put (other.ordered_accountOf _) name) ?_
    intro next
    rw [find?_below_accountOf, links]
    by_cases onPath : next = name
    · rw [onPath, link, Forest.find?_put_self]
      rfl
    · rw [child?_down_of_ne (.inr onPath), Forest.find?_put_of_ne onPath, account,
        find?_below_accountOf]
      cases found : place.arena.child? place.index next with
      | none => rfl
      | some child =>
        apply congrArg some
        apply accountOf_congr
        intro index below
        have inside := below.inside (place.arena.linked.inside found)
        have later := (place.arena.linked.later found).trans_le below.le
        have aside := not_below_sibling link (child?_down_of_some found) onPath (below_down below)
        rw [same index (inside.trans_le larger) aside, node_down_of_ne later.ne']

/-- What is posted at a node is posted in the account that it stands for. -/
theorem account_post (place : Place) :
    (post commodity amount path place).lift (fun last => last.arena.accountOf place.index) =
      place.account.post commodity amount path := by
  induction path generalizing place with
  | nil =>
    rw [post, Account.post, ← account_postRollup]
    apply Progress.lift_andThen
    exact account_postOwn
  | cons name path ih =>
    rw [post, Account.post, ← account_postRollup]
    apply Progress.lift_andThen
    obtain ⟨here, hereEq, indexEq, _⟩ := place.exists_postRollup commodity amount
    rw [hereEq, ← indexEq, ← account]
    have altered : here.account.below.alter name (Account.post commodity amount path) = _ :=
      Forest.alter_eq_put here.ordered_account _
    rw [altered, ← account_down, ← ih (here.down name)]
    apply congrArg (Progress.mk · _)
    apply here.accountOf_of_apart
    intro index inside apart
    exact node_post inside apart

end Arena.Place

namespace Arena

/-- Posting in an arena is posting in its account tree. -/
theorem account_post (arena : Arena) (commodity : Commodity) (amount : Decimal)
    (path : List String) : (arena.post commodity amount path).lift account =
      arena.account.post commodity amount path :=
  arena.root.account_post

end Arena

end DoubleEntry

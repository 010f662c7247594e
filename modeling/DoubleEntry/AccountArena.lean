import DoubleEntry.AccountTree
import DoubleEntry.Balancing
import DoubleEntry.Query.Basic

/-! Account trees as they are built. The accounts stand one behind the other in the order in which
they were opened, and each refers to those directly below it by their indices. -/

namespace DoubleEntry

namespace Arena

/-- An account with the indices of the accounts directly below it, by their names. -/
structure Node where
  below : SortedMap String Nat := ∅
  own : Balance := ∅
  rollup : Balance := ∅

/-- The node at an index, an empty one behind the last. -/
def nodeAt (nodes : Array Node) (index : Nat) : Node := nodes[index]?.getD {}

def childAt? (nodes : Array Node) (parent : Nat) (name : String) : Option Nat :=
  (nodeAt nodes parent).below.find? name

/-- The links between so many nodes are those of a tree: they start at the first node, and every
other node has exactly one in front of it that links to it, under one name. -/
structure Linked (size : Nat) (child? : Nat → String → Option Nat) : Prop where
  rooted : 0 < size
  inside {parent child : Nat} {name : String} : child? parent name = some child → child < size
  later {parent child : Nat} {name : String} : child? parent name = some child → parent < child
  oneParent {parent other child : Nat} {name otherName : String} :
    child? parent name = some child → child? other otherName = some child →
      parent = other ∧ name = otherName
  hangs {index : Nat} : 0 < index → index < size → ∃ parent name, child? parent name = some index

/-- A new node behind the others, below one of them, leaves the links those of a tree. -/
theorem Linked.link {size parent : Nat} {name : String} {child? : Nat → String → Option Nat}
    (linked : Linked size child?) (inside : parent < size) (free : child? parent name = none) :
    Linked (size + 1) fun other otherName =>
      if other = parent ∧ otherName = name then some size else child? other otherName where
  rooted := Nat.succ_pos size
  inside found := by
    split at found
    · cases found
      exact Nat.lt_succ_self size
    · exact Nat.lt_succ_of_lt (linked.inside found)
  later found := by
    split at found
    case isTrue new =>
      cases found
      exact new.1 ▸ inside
    case isFalse => exact linked.later found
  oneParent found found' := by
    split at found <;> split at found'
    case isTrue.isTrue new new' => exact ⟨new.1.trans new'.1.symm, new.2.trans new'.2.symm⟩
    case isTrue.isFalse =>
      cases found
      exact absurd (linked.inside found') (Nat.lt_irrefl size)
    case isFalse.isTrue =>
      cases found'
      exact absurd (linked.inside found) (Nat.lt_irrefl size)
    case isFalse.isFalse => exact linked.oneParent found found'
  hangs {index} positive bounded := by
    rcases Nat.lt_succ_iff_lt_or_eq.mp bounded with old | rfl
    · obtain ⟨other, otherName, found⟩ := linked.hangs positive old
      refine ⟨other, otherName, ?_⟩
      rw [if_neg, found]
      rintro ⟨rfl, rfl⟩
      rw [free] at found
      cases found
    · exact ⟨parent, name, if_pos ⟨rfl, rfl⟩⟩

theorem nodeAt_setIfInBounds (nodes : Array Node) {index : Nat} (inside : index < nodes.size)
    (node : Node) (other : Nat) :
    nodeAt (nodes.setIfInBounds index node) other =
      if other = index then node else nodeAt nodes other := by
  rw [nodeAt, Array.getElem?_setIfInBounds]
  by_cases same : other = index
  · simp [same, inside]
  · simp [same, Ne.symm same, nodeAt]

/-- Behind the last node there is nothing but empty ones. -/
theorem nodeAt_push_empty (nodes : Array Node) (index : Nat) :
    nodeAt (nodes.push {}) index = nodeAt nodes index := by
  rw [nodeAt, nodeAt, Array.getElem?_push]
  split
  case isTrue last => simp [last]
  case isFalse => rfl

end Arena

/-- Accounts that link to those below them. The first one is the whole. -/
structure Arena where
  nodes : Array Arena.Node
  linked : Arena.Linked nodes.size (Arena.childAt? nodes)

namespace Arena

/-- Nothing but the whole. -/
def empty : Arena where
  nodes := #[{}]
  linked := by
    have none (parent : Nat) (name : String) : childAt? #[{}] parent name = none := by
      rw [childAt?, ← List.nil_append [({} : Node)], nodeAt]
      rcases parent with _ | parent <;> rfl
    exact {
      rooted := Nat.one_pos
      inside := fun found => by simp [none] at found
      later := fun found => by simp [none] at found
      oneParent := fun found => by simp [none] at found
      hangs := fun positive bounded => absurd bounded (Nat.not_lt.mpr positive) }

instance : EmptyCollection Arena := ⟨empty⟩

def node (arena : Arena) (index : Nat) : Node := nodeAt arena.nodes index

/-- The index of the account of a name directly below the one at an index. -/
def child? (arena : Arena) (parent : Nat) (name : String) : Option Nat :=
  childAt? arena.nodes parent name

def find? (arena : Arena) (path : List String) : Option Nat := path.foldlM arena.child? 0

def total (arena : Arena) : Balance := (arena.node 0).rollup

def rollupOf? (arena : Arena) (path : List String) : Option Balance :=
  (arena.find? path).map fun index => (arena.node index).rollup

def ownOf? (arena : Arena) (path : List String) : Option Balance :=
  (arena.find? path).map fun index => (arena.node index).own

/-- An account of an arena. -/
structure Place where
  arena : Arena
  index : Nat
  inside : index < arena.nodes.size

namespace Place

def node (place : Place) : Node := place.arena.node place.index

/-- The account with other balances. -/
def write (place : Place) (own rollup : Balance) : Place where
  arena := {
    nodes := place.arena.nodes.setIfInBounds place.index { place.node with own, rollup }
    linked := by
      have links : childAt? (place.arena.nodes.setIfInBounds place.index
          { place.node with own, rollup }) = childAt? place.arena.nodes := by
        funext parent name
        rw [childAt?, nodeAt_setIfInBounds _ place.inside]
        split
        case isTrue same => rw [same]; rfl
        case isFalse => rfl
      rw [links, Array.size_setIfInBounds]
      exact place.arena.linked }
  index := place.index
  inside := by
    rw [Array.size_setIfInBounds]
    exact place.inside

/-- A new account of a name directly below the given one. -/
def opening (place : Place) (name : String)
    (free : place.arena.child? place.index name = none) : Place where
  arena := {
    nodes := (place.arena.nodes.push {}).setIfInBounds place.index
      { place.node with below := place.node.below.insert name place.arena.nodes.size }
    linked := by
      have inside : place.index < (place.arena.nodes.push {}).size := by
        rw [Array.size_push]
        exact Nat.lt_succ_of_lt place.inside
      have links : childAt? ((place.arena.nodes.push {}).setIfInBounds place.index
          { place.node with below := place.node.below.insert name place.arena.nodes.size }) =
          fun other otherName => if other = place.index ∧ otherName = name then
            some place.arena.nodes.size else childAt? place.arena.nodes other otherName := by
        funext other otherName
        rw [childAt?, nodeAt_setIfInBounds _ inside, nodeAt_push_empty]
        by_cases here : other = place.index
        · subst here
          by_cases new : otherName = name
          · simp [new, SortedMap.find?_insert_self]
          · simp [new, SortedMap.find?_insert_of_ne, childAt?, Place.node, Arena.node]
        · simp [here, childAt?]
      rw [links, Array.size_setIfInBounds, Array.size_push]
      exact place.arena.linked.link place.inside free }
  index := place.arena.nodes.size
  inside := by
    rw [Array.size_setIfInBounds, Array.size_push]
    exact Nat.lt_succ_self _

/-- The account of a name directly below, which is opened if it is not there. -/
def down (place : Place) (name : String) : Place :=
  match found : place.arena.child? place.index name with
  | some child => ⟨place.arena, child, place.arena.linked.inside found⟩
  | none => place.opening name found

def postRollup (place : Place) (commodity : Commodity) (amount : Decimal) :
    Progress Place Overflow :=
  (place.node.rollup.post commodity amount).lift (place.write place.node.own)

def postOwn (place : Place) (commodity : Commodity) (amount : Decimal) : Progress Place Overflow :=
  (place.node.own.post commodity amount).lift fun own => place.write own place.node.rollup

/-- Adds an amount to an account, to those on the path below it, and to the own balance of the last
one. -/
def post (commodity : Commodity) (amount : Decimal) : List String → Place → Progress Place Overflow
  | [], place =>
    (place.postRollup commodity amount).andThen fun place => place.postOwn commodity amount
  | name :: path, place =>
    (place.postRollup commodity amount).andThen fun place =>
      post commodity amount path (place.down name)

end Place

def root (arena : Arena) : Place := ⟨arena, 0, arena.linked.rooted⟩

/-- Adds an amount to the account that a path leads to and to the rollups on the way, from the top
down. A sum that is too large ends this halfway. -/
def post (arena : Arena) (commodity : Commodity) (amount : Decimal) (path : List String) :
    Progress Arena Overflow :=
  (Place.post commodity amount path arena.root).lift Place.arena

/-- Adds amounts to one account, in order. -/
def postAll (arena : Arena) (path : List String) (amounts : List (Commodity × Decimal)) :
    Progress Arena Overflow :=
  Progress.foldl (fun arena amount => arena.post amount.1 amount.2 path) arena amounts

section

variable [PatternEngine]

/-- Adds the postings of a completed transaction that a query selects. -/
def postSelected (arena : Arena) (query : Query) (completed : Transaction) :
    Progress Arena Overflow :=
  Progress.foldl (fun arena posting =>
    arena.postAll posting.account ((posting.amounts.getD ∅).entries)) arena
    (query.postings completed)

/-- Adds the postings of a transaction that a query selects, after completing it. -/
def postTransaction (arena : Arena) (query : Query) (transaction : Transaction) :
    Progress Arena BalanceError :=
  match transaction.completed with
  | .error error => ⟨arena, some error⟩
  | .ok completed =>
    let run := arena.postSelected query completed
    ⟨run.state, run.fault.map .overflow⟩

/-- Adds the postings of some transactions that a query selects. -/
def postTransactions (arena : Arena) (query : Query) (transactions : List Transaction) :
    Progress Arena BalanceError :=
  Progress.foldl (fun arena transaction => arena.postTransaction query transaction) arena
    transactions

end

/-- What a node stands for, if `sub` gives what the indices in it stand for. -/
def Node.account (node : Node) (sub : Nat → Account) : Account :=
  ⟨node.own, node.rollup,
    .ofAccounts (node.below.entries.map fun entry => (entry.1, sub entry.2))⟩

/-- What an index stands for among nodes that start at the index `start`. No node links to one in
front of it. -/
def accountFrom (start : Nat) : List Node → Nat → Account
  | [], _ => {}
  | node :: later, index =>
    if index = start then node.account (accountFrom (start + 1) later)
    else accountFrom (start + 1) later index

/-- The account at an index, with all the accounts below it. -/
def accountOf (arena : Arena) (index : Nat) : Account := accountFrom 0 arena.nodes.toList index

def account (arena : Arena) : Account := arena.accountOf 0

end Arena

end DoubleEntry

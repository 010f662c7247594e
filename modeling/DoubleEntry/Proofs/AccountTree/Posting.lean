import DoubleEntry.AccountTree
import DoubleEntry.Proofs.Progress
import DoubleEntry.Proofs.SortedMap

/-! What one posting does to an account tree, told by recursion on the tree. It changes the accounts
on its path and opens those that are not there; every other account stays as it is. -/

namespace DoubleEntry

namespace Forest

def find? (name : String) : Forest → Option Account
  | nil => none
  | cons here own rollup below rest =>
    if name == here then some ⟨own, rollup, below⟩ else find? name rest

/-- Changes the account of a name, which is opened at its place if it is not there. -/
def alter {ε : Type} (name : String) (change : Account → Progress Account ε) :
    Forest → Progress Forest ε
  | nil => (change {}).lift fun account => cons name account.own account.rollup account.below nil
  | cons here own rollup below rest =>
    match compare name here with
    | .lt =>
      (change {}).lift fun account =>
        cons name account.own account.rollup account.below (cons here own rollup below rest)
    | .eq =>
      (change ⟨own, rollup, below⟩).lift fun account =>
        cons here account.own account.rollup account.below rest
    | .gt => (alter name change rest).lift (cons here own rollup below)

/-- The accounts side by side, each with its name. -/
def accounts : Forest → List (String × Account)
  | nil => []
  | cons name own rollup below rest => (name, ⟨own, rollup, below⟩) :: rest.accounts

def names (forest : Forest) : List String := forest.accounts.map Prod.fst

/-- At every depth the names are in strictly increasing order. -/
def Ordered : Forest → Prop
  | nil => True
  | cons name _ _ below rest =>
    (∀ other ∈ rest.names, compare name other = .lt) ∧ below.Ordered ∧ rest.Ordered

/-- The accounts with `account` in the place of the one called `name`. -/
def put (name : String) (account : Account) : Forest → Forest
  | nil => cons name account.own account.rollup account.below nil
  | cons here own rollup below rest =>
    match compare name here with
    | .lt => cons name account.own account.rollup account.below (cons here own rollup below rest)
    | .eq => cons here account.own account.rollup account.below rest
    | .gt => cons here own rollup below (put name account rest)

variable {forest : Forest} {name other : String} {account : Account}

theorem find?_eq_none_iff : forest.find? name = none ↔ name ∉ forest.names := by
  induction forest with
  | nil => simp [find?, names, accounts]
  | cons here own rollup below rest _ ih =>
    by_cases same : name = here
    · subst same
      simp [find?, names, accounts]
    · simpa [find?, names, accounts, same] using ih

theorem find?_eq_none_of_lt {own rollup : Balance} {below rest : Forest} {here : String}
    (ordered : (cons here own rollup below rest).Ordered) (less : compare name here = .lt) :
    (cons here own rollup below rest).find? name = none := by
  rw [find?_eq_none_iff]
  intro member
  rcases List.mem_cons.mp member with same | later
  · exact SortedMap.compare_ne_eq_of_lt less same
  · have beyond := Std.TransCmp.lt_trans less (ordered.1 name later)
    exact SortedMap.compare_ne_eq_of_lt beyond rfl

theorem find?_put_self (name : String) (account : Account) (forest : Forest) :
    (forest.put name account).find? name = some account := by
  induction forest with
  | nil => simp [put, find?]
  | cons here own rollup below rest _ ih =>
    unfold put
    split
    case h_1 => simp [find?]
    case h_2 same =>
      have same := Std.LawfulEqOrd.eq_of_compare same
      simp [find?, same]
    case h_3 greater =>
      have apart : name ≠ here := by
        rintro rfl
        rw [Std.ReflOrd.compare_self] at greater
        cases greater
      simpa [find?, apart] using ih

theorem find?_put_of_ne (distinct : other ≠ name) (account : Account) (forest : Forest) :
    (forest.put name account).find? other = forest.find? other := by
  induction forest with
  | nil => simp [put, find?, distinct]
  | cons here own rollup below rest _ ih =>
    unfold put
    split
    case h_1 => simp [find?, distinct]
    case h_2 same =>
      have same := Std.LawfulEqOrd.eq_of_compare same
      simp [find?, ← same, distinct]
    case h_3 => simp [find?, ih]

theorem mem_names_put :
    other ∈ (forest.put name account).names ↔ other = name ∨ other ∈ forest.names := by
  rw [← not_iff_not, not_or, ← find?_eq_none_iff, ← find?_eq_none_iff]
  by_cases same : other = name
  · subst same
    simp [find?_put_self]
  · simp [find?_put_of_ne same, same]

theorem Ordered.put (ordered : forest.Ordered) (below : account.below.Ordered) (name : String) :
    (forest.put name account).Ordered := by
  induction forest with
  | nil => exact ⟨fun _ member => absurd member List.not_mem_nil, below, trivial⟩
  | cons here own rollup inner rest _ ih =>
    obtain ⟨first, innerOrdered, restOrdered⟩ := ordered
    unfold Forest.put
    split
    case h_1 less =>
      refine ⟨?_, below, first, innerOrdered, restOrdered⟩
      intro other member
      rcases List.mem_cons.mp member with same | later
      · exact same ▸ less
      · exact Std.TransCmp.lt_trans less (first other later)
    case h_2 => exact ⟨first, below, restOrdered⟩
    case h_3 greater =>
      refine ⟨?_, innerOrdered, ih restOrdered⟩
      intro other member
      rcases mem_names_put.mp member with same | later
      · exact same ▸ Std.OrientedCmp.lt_of_gt greater
      · exact first other later

/-- Changing the account of a name is changing what is found there and putting it back. -/
theorem alter_eq_put {ε : Type} (ordered : forest.Ordered)
    (change : Account → Progress Account ε) :
    forest.alter name change =
      (change ((forest.find? name).getD {})).lift fun account => forest.put name account := by
  induction forest with
  | nil => rfl
  | cons here own rollup below rest _ ih =>
    unfold alter Forest.put
    cases order : compare name here with
    | lt =>
      rw [find?_eq_none_of_lt ordered order]
      rfl
    | eq =>
      have same := Std.LawfulEqOrd.eq_of_compare order
      simp [find?, same]
    | gt =>
      have apart : name ≠ here := by
        rintro rfl
        rw [Std.ReflOrd.compare_self] at order
        cases order
      simp only [find?, beq_iff_eq, apart, if_false]
      rw [ih ordered.2.2]
      rfl

theorem Ordered.find? (ordered : forest.Ordered) (found : forest.find? name = some account) :
    account.below.Ordered := by
  induction forest with
  | nil => cases found
  | cons here own rollup below rest _ ih =>
    unfold Forest.find? at found
    split at found
    · cases found
      exact ordered.2.1
    · exact ih ordered.2.2 found

theorem Ordered.getD_find? (ordered : forest.Ordered) (name : String) :
    ((forest.find? name).getD {}).below.Ordered := by
  cases found : forest.find? name with
  | none => trivial
  | some account => exact ordered.find? found

theorem Ordered.nodup_names (ordered : forest.Ordered) : forest.names.Nodup := by
  induction forest with
  | nil => exact List.nodup_nil
  | cons here own rollup below rest _ ih =>
    refine List.nodup_cons.mpr ⟨?_, ih ordered.2.2⟩
    intro member
    exact SortedMap.compare_ne_eq_of_lt (ordered.1 here member) rfl

/-- Names being distinct, each account is found under its name. -/
theorem Ordered.find?_of_mem (ordered : forest.Ordered)
    (member : (name, account) ∈ forest.accounts) : forest.find? name = some account := by
  induction forest with
  | nil => cases member
  | cons here own rollup below rest _ ih =>
    rcases List.mem_cons.mp member with same | later
    · cases same
      simp [Forest.find?]
    · have distinct : name ≠ here := by
        rintro rfl
        have less := ordered.1 name (List.mem_map.mpr ⟨_, later, rfl⟩)
        exact SortedMap.compare_ne_eq_of_lt less rfl
      simpa [Forest.find?, distinct] using ih ordered.2.2 later

end Forest

namespace Account

def postRollup (account : Account) (commodity : Commodity) (amount : Decimal) :
    Progress Account Overflow :=
  (account.rollup.post commodity amount).lift fun rollup => { account with rollup }

def postOwn (account : Account) (commodity : Commodity) (amount : Decimal) :
    Progress Account Overflow :=
  (account.own.post commodity amount).lift fun own => { account with own }

/-- Adds an amount to the account that a path leads to and to the rollups on the way, from the top
down. A sum that is too large ends this halfway. -/
def post (commodity : Commodity) (amount : Decimal) :
    (path : List String) → Account → Progress Account Overflow
  | [], account =>
    (account.postRollup commodity amount).andThen fun account => account.postOwn commodity amount
  | name :: path, account =>
    (account.postRollup commodity amount).andThen fun account =>
      (account.below.alter name (post commodity amount path)).lift fun below =>
        { account with below }

def find? : Account → List String → Option Account
  | account, [] => some account
  | account, name :: path => do (← account.below.find? name).find? path

variable {account : Account} {commodity : Commodity} {amount : Decimal} {name : String}
  {path other : List String}

@[simp] theorem find?_nil (account : Account) : account.find? [] = some account := rfl

theorem find?_cons (account : Account) (name : String) (path : List String) :
    account.find? (name :: path) = (account.below.find? name).bind (·.find? path) := rfl

theorem find?_append (account : Account) (first second : List String) :
    account.find? (first ++ second) = (account.find? first).bind (·.find? second) := by
  induction first generalizing account with
  | nil => simp
  | cons name first ih =>
    rw [List.cons_append, find?_cons, find?_cons, Option.bind_assoc]
    congr 1
    funext sub
    exact ih sub

theorem find?_getD (found : Option Account) (deeper : path ≠ []) :
    (found.getD {}).find? path = found.bind (·.find? path) := by
  cases found with
  | some account => rfl
  | none =>
    cases path with
    | nil => exact absurd rfl deeper
    | cons name path => simp [find?_cons, Forest.find?]

/-- The account at a path, an empty one if nothing is there. -/
def accountAt (account : Account) (path : List String) : Account := (account.find? path).getD {}

@[simp] theorem accountAt_nil (account : Account) : account.accountAt [] = account := by
  simp [accountAt]

theorem accountAt_cons (account : Account) (name : String) (path : List String) :
    account.accountAt (name :: path) = ((account.below.find? name).getD {}).accountAt path := by
  rw [accountAt, find?_cons]
  cases path with
  | nil => cases account.below.find? name <;> simp
  | cons next path => rw [accountAt, find?_getD _ (List.cons_ne_nil next path)]

theorem ordered_find? {found : Account} (ordered : account.below.Ordered)
    (reached : account.find? path = some found) : found.below.Ordered := by
  induction path generalizing account with
  | nil =>
    rw [find?_nil] at reached
    cases reached
    exact ordered
  | cons name path ih =>
    rw [find?_cons] at reached
    obtain ⟨sub, subFound, deeper⟩ := Option.bind_eq_some_iff.mp reached
    exact ih (ordered.find? subFound) deeper

theorem post_nil_of_done (done : (account.post commodity amount []).fault = none) :
    ∃ rollup own, account.rollup.post commodity amount = ⟨rollup, none⟩ ∧
      account.own.post commodity amount = ⟨own, none⟩ ∧
      (account.post commodity amount []).state = { account with rollup, own } := by
  obtain ⟨first, second⟩ := Progress.fault_andThen_eq_none_iff.mp done
  refine ⟨_, _, Progress.eq_of_fault_eq_none first, Progress.eq_of_fault_eq_none second, ?_⟩
  rw [post, Progress.andThen_of_done _ first]
  rfl

/-- A posting further down changes the rollup and goes on in the account of the next name. -/
theorem post_cons_of_done (ordered : account.below.Ordered)
    (done : (account.post commodity amount (name :: path)).fault = none) :
    ∃ rollup sub, account.rollup.post commodity amount = ⟨rollup, none⟩ ∧
      ((account.below.find? name).getD {}).post commodity amount path = ⟨sub, none⟩ ∧
      (account.post commodity amount (name :: path)).state =
        { account with rollup, below := account.below.put name sub } := by
  obtain ⟨first, second⟩ := Progress.fault_andThen_eq_none_iff.mp done
  have altered : account.below.alter name (post commodity amount path) = _ :=
    Forest.alter_eq_put ordered (post commodity amount path)
  have inner : (((account.below.find? name).getD {}).post commodity amount path).fault = none := by
    have unfaulted : (account.below.alter name (post commodity amount path)).fault = none := second
    rw [altered] at unfaulted
    exact unfaulted
  refine ⟨_, _, Progress.eq_of_fault_eq_none first, Progress.eq_of_fault_eq_none inner, ?_⟩
  have sameBelow : (account.postRollup commodity amount).state.below = account.below := rfl
  rw [post, Progress.andThen_of_done _ first, sameBelow, altered]
  rfl

/-- The names stay in order, even if a sum on the way is too large. -/
theorem ordered_post (ordered : account.below.Ordered) :
    (account.post commodity amount path).state.below.Ordered := by
  induction path generalizing account with
  | nil =>
    rw [post, Progress.andThen]
    split <;> exact ordered
  | cons name path ih =>
    rw [post, Progress.andThen]
    split
    case h_1 =>
      have sameBelow : (account.postRollup commodity amount).state.below = account.below := rfl
      have altered : account.below.alter name (post commodity amount path) = _ :=
        Forest.alter_eq_put ordered (post commodity amount path)
      rw [sameBelow, altered]
      exact ordered.put (ih (ordered.getD_find? name)) name
    case h_2 => exact ordered

/-- Accounts that are not on the path stay as they are. -/
theorem find?_post_aside (ordered : account.below.Ordered)
    (done : (account.post commodity amount path).fault = none) (aside : ¬ other <+: path) :
    (account.post commodity amount path).state.find? other = account.find? other := by
  induction path generalizing account other with
  | nil =>
    obtain ⟨rollup, own, _, _, after⟩ := post_nil_of_done done
    cases other with
    | nil => exact absurd (List.prefix_refl []) aside
    | cons => rw [after, find?_cons, find?_cons]
  | cons name path ih =>
    obtain ⟨rollup, sub, _, inner, after⟩ := post_cons_of_done ordered done
    cases other with
    | nil => exact absurd List.nil_prefix aside
    | cons first other =>
      rw [after, find?_cons, find?_cons]
      by_cases same : first = name
      · subst same
        have apart : ¬ other <+: path :=
          fun within => aside (List.cons_prefix_cons.mpr ⟨rfl, within⟩)
        have deeper := ih (ordered.getD_find? first) (congrArg Progress.fault inner) apart
        rw [inner] at deeper
        have nonempty : other ≠ [] := by
          rintro rfl
          exact apart List.nil_prefix
        rw [Forest.find?_put_self, Option.bind_some, deeper, find?_getD _ nonempty]
      · rw [Forest.find?_put_of_ne same]

/-- Every account on the path is there afterwards, with the amount in its rollup. Only the account
that the path leads to has it in its own balance as well. -/
theorem find?_post_onPath (ordered : account.below.Ordered)
    (done : (account.post commodity amount path).fault = none) (onPath : other <+: path) :
    ∃ after, (account.post commodity amount path).state.find? other = some after ∧
      (account.accountAt other).rollup.post commodity amount = ⟨after.rollup, none⟩ ∧
      (other = path → (account.accountAt other).own.post commodity amount = ⟨after.own, none⟩) ∧
      (other ≠ path → after.own = (account.accountAt other).own) := by
  induction path generalizing account other with
  | nil =>
    obtain ⟨rollup, own, rollupPosted, ownPosted, after⟩ := post_nil_of_done done
    obtain rfl := List.prefix_nil.mp onPath
    rw [after, accountAt_nil]
    exact ⟨_, find?_nil _, rollupPosted, fun _ => ownPosted, fun distinct => absurd rfl distinct⟩
  | cons name path ih =>
    obtain ⟨rollup, sub, rollupPosted, inner, after⟩ := post_cons_of_done ordered done
    cases other with
    | nil =>
      rw [after, accountAt_nil]
      exact ⟨_, find?_nil _, rollupPosted, fun same => (List.cons_ne_nil _ _ same.symm).elim,
        fun _ => rfl⟩
    | cons first other =>
      obtain ⟨rfl, within⟩ := List.cons_prefix_cons.mp onPath
      obtain ⟨reached, found, rollupEq, ownEq, ownSame⟩ :=
        ih (ordered.getD_find? first) (congrArg Progress.fault inner) within
      rw [inner] at found
      rw [after, find?_cons, Forest.find?_put_self, Option.bind_some, accountAt_cons]
      refine ⟨reached, found, rollupEq, fun same => ownEq ?_, fun distinct => ownSame ?_⟩
      · exact (List.cons.inj same).2
      · rintro rfl
        exact distinct rfl

end Account

end DoubleEntry

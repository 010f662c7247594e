import DoubleEntry.Proofs.AccountTree.Bounds

/-! What the rows of an account tree show, up to the digits in which an amount is written. It is
determined by the figures of the accounts, wherever they are found in the tree; and within bounds
the figures are the same in whichever order the bookings are made. -/

namespace DoubleEntry

/-- The value of every commodity that a balance mentions. -/
abbrev Figures := SortedMap Commodity Rat

def Balance.figures (balance : Balance) : Figures := balance.mapValues Decimal.value

/-- What a row shows, its rollup by value. -/
def AccountRow.figures (row : AccountRow) : Nat × String × Figures :=
  (row.depth, row.name, row.rollup.figures)

def Account.figuresAt (account : Account) (path : List String) : Option Figures :=
  (account.find? path).map fun found => found.rollup.figures

theorem Account.figuresAt_cons (account : Account) (name : String) (path : List String) :
    account.figuresAt (name :: path) = (account.below.find? name).bind (·.figuresAt path) := by
  rw [figuresAt, find?_cons, Option.map_bind]
  rfl

namespace Forest

/-- The same accounts side by side and below each other, with the same figures. -/
inductive Alike : Forest → Forest → Prop
  | nil : Alike nil nil
  | cons {name : String} {own own' rollup rollup' : Balance} {below below' rest rest' : Forest}
      (rollups : rollup.figures = rollup'.figures) (belowAlike : Alike below below')
      (restAlike : Alike rest rest') :
      Alike (cons name own rollup below rest) (cons name own' rollup' below' rest')

variable {first second : Forest}

/-- Accounts that are alike have rows that show the same. -/
theorem Alike.rows (alike : Alike first second) (depth : Nat) (label : String) :
    (first.rows depth label).map AccountRow.figures =
      (second.rows depth label).map AccountRow.figures := by
  induction alike generalizing depth label with
  | nil => rfl
  | @cons name own own' rollup rollup' below below' rest rest' rollups belowAlike _ belowIH restIH =>
    have here : AccountRow.figures ⟨depth, label ++ name, rollup⟩ =
        AccountRow.figures ⟨depth, label ++ name, rollup'⟩ := by
      rw [AccountRow.figures, AccountRow.figures, rollups]
    unfold Forest.rows
    rw [List.map_append, List.map_append, restIH]
    congr 1
    -- whether an account has exactly one below it can be seen in either of the two
    cases belowAlike with
    | nil => rw [List.map_cons, List.map_cons, here, belowIH]
    | cons _ _ restAlike =>
      cases restAlike with
      | nil => exact belowIH depth _
      | cons => rw [List.map_cons, List.map_cons, here, belowIH]

theorem figuresAt_head (name : String) (own rollup : Balance) (below rest : Forest)
    (path : List String) :
    ((cons name own rollup below rest).find? name).bind (·.figuresAt path) =
      Account.figuresAt ⟨own, rollup, below⟩ path := by
  simp [find?]

theorem Ordered.head_le {name here : String} {own rollup : Balance} {below rest : Forest}
    (ordered : (cons here own rollup below rest).Ordered)
    (found : (cons here own rollup below rest).find? name ≠ none) : compare name here ≠ .lt :=
  fun less => found (find?_eq_none_of_lt ordered less)

theorem Ordered.find?_rest {here : String} {own rollup : Balance} {below rest : Forest}
    (ordered : (cons here own rollup below rest).Ordered) : rest.find? here = none :=
  find?_eq_none_iff.mpr fun member =>
    SortedMap.compare_ne_eq_of_lt (ordered.1 here member) rfl

/-- Ordered accounts with the same figures at all paths are alike. -/
theorem Ordered.alike (ordered : first.Ordered) (ordered' : second.Ordered)
    (same : ∀ name path, (first.find? name).bind (·.figuresAt path) =
      (second.find? name).bind (·.figuresAt path)) : Alike first second := by
  induction first generalizing second with
  | nil =>
    cases second with
    | nil => exact .nil
    | cons here own rollup below rest =>
      have absent := same here []
      rw [figuresAt_head] at absent
      cases absent
  | cons here own rollup below rest belowIH restIH =>
    cases second with
    | nil =>
      have absent := same here []
      rw [figuresAt_head] at absent
      cases absent
    | cons here' own' rollup' below' rest' =>
      have found : (cons here' own' rollup' below' rest').find? here ≠ none := by
        intro absent
        have present := same here []
        rw [figuresAt_head, absent] at present
        cases present
      have found' : (cons here own rollup below rest).find? here' ≠ none := by
        intro absent
        have present := same here' []
        rw [figuresAt_head, absent] at present
        cases present
      -- each first name is found in the other forest, so neither comes before the other
      obtain rfl : here = here' := by
        cases order : compare here here' with
        | lt => exact absurd order (ordered'.head_le found)
        | eq => exact Std.LawfulEqOrd.eq_of_compare order
        | gt => exact absurd (Std.OrientedCmp.lt_of_gt order) (ordered.head_le found')
      have heads (path : List String) : Account.figuresAt ⟨own, rollup, below⟩ path =
          Account.figuresAt ⟨own', rollup', below'⟩ path := by
        have head := same here path
        rwa [figuresAt_head, figuresAt_head] at head
      refine .cons (Option.some.inj (heads [])) ?_ ?_
      · refine belowIH ordered.2.1 ordered'.2.1 fun name path => ?_
        have deeper := heads (name :: path)
        rwa [Account.figuresAt_cons, Account.figuresAt_cons] at deeper
      · refine restIH ordered.2.2 ordered'.2.2 fun name path => ?_
        by_cases again : name = here
        · rw [again, ordered.find?_rest, ordered'.find?_rest]
        · simpa [Forest.find?, again] using same name path

end Forest

namespace Balance

variable {total first second : Balance} {entries others : List (Commodity × Decimal)}
  {commodity : Commodity}

/-- The figures of a run of postings within bounds are the exact sums of what was posted. -/
theorem find?_figures_postAll (run : postAll ∅ entries = ⟨total, none⟩)
    (bounded : Decimal.gross (amountsIn entries commodity) < 2 ^ 96) :
    total.figures.find? commodity = if amountsIn entries commodity = [] then none
      else some (Decimal.exactSum (amountsIn entries commodity)) := by
  have value := value_amountOf_postAll run bounded
  have mentioned := isSome_find?_postAll (congrArg Progress.fault run) commodity
  rw [run] at mentioned
  rw [figures, SortedMap.find?_mapValues]
  cases found : total.find? commodity with
  | none =>
    have nothing : amountsIn entries commodity = [] := by simpa [found] using mentioned
    rw [if_pos nothing, Option.map_none]
  | some amount =>
    have something : amountsIn entries commodity ≠ [] := by simpa [found] using mentioned
    rw [if_neg something, ← value, amountOf, found, Option.map_some, Option.getD_some]

/-- Within bounds the figures do not depend on the order in which amounts are added. -/
theorem figures_postAll_perm (permuted : others.Perm entries)
    (bounded : ∀ commodity, Decimal.gross (amountsIn entries commodity) < 2 ^ 96)
    (run : postAll ∅ entries = ⟨first, none⟩) (run' : postAll ∅ others = ⟨second, none⟩) :
    second.figures = first.figures := by
  refine SortedMap.ext_find? fun commodity => ?_
  have amounts : (amountsIn others commodity).Perm (amountsIn entries commodity) :=
    permuted.filterMap _
  have bounded' : Decimal.gross (amountsIn others commodity) < 2 ^ 96 := by
    rw [Decimal.gross_perm amounts]
    exact bounded commodity
  rw [find?_figures_postAll run (bounded commodity), find?_figures_postAll run' bounded',
    Decimal.exactSum_perm amounts]
  simp only [← List.length_eq_zero_iff, amounts.length_eq]

end Balance

namespace Account

variable {tree other : Account} {bookings others : List Booking}

/-- Trees of the same bookings have the same accounts with the same figures. -/
theorem Represents.figuresAt_perm (represents : tree.Represents bookings)
    (represents' : other.Represents others) (permuted : others.Perm bookings)
    (bounded : Booking.Bounded bookings) (path : List String) :
    other.figuresAt path = tree.figuresAt path := by
  have present : (other.find? path).isSome ↔ (tree.find? path).isSome := by
    rw [represents.present, represents'.present]
    simp only [permuted.mem_iff]
  have figures : (other.accountAt path).rollup.figures = (tree.accountAt path).rollup.figures :=
    Balance.figures_postAll_perm ((permuted.filter _).map _) (bounded.entriesBelow path)
      (represents.rollup path) (represents'.rollup path)
  rw [accountAt, accountAt] at figures
  rw [figuresAt, figuresAt]
  cases found : tree.find? path with
  | none => simpa [found] using present
  | some account =>
    obtain ⟨account', found'⟩ := Option.isSome_iff_exists.mp (present.mpr (by rw [found]; rfl))
    rw [found, found', Option.getD_some, Option.getD_some] at figures
    rw [found', Option.map_some, Option.map_some, figures]

/-- Trees of the same bookings have rows that show the same, in the same order. -/
theorem Represents.rows_perm (represents : tree.Represents bookings)
    (represents' : other.Represents others) (permuted : others.Perm bookings)
    (bounded : Booking.Bounded bookings) :
    other.rows.map AccountRow.figures = tree.rows.map AccountRow.figures := by
  have same := represents.figuresAt_perm represents' permuted bounded
  have root : other.rollup.figures = tree.rollup.figures := Option.some.inj (same [])
  have below : Forest.Alike other.below tree.below := by
    refine represents'.ordered.alike represents.ordered fun name path => ?_
    rw [← figuresAt_cons, ← figuresAt_cons]
    exact same (name :: path)
  rw [rows, rows, List.map_cons, List.map_cons, below.rows, AccountRow.figures, AccountRow.figures,
    root]

end Account

end DoubleEntry

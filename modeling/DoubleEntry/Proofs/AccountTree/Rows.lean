import DoubleEntry.Proofs.AccountTree.Rollup

/-! What the rows of an account tree add up to. Accounts with exactly one account below them are
left out of the rows in favour of that one, and their own balances with them. The rows of depth one
and what is booked to such accounts make up the whole. -/

namespace DoubleEntry

namespace Forest

/-- The rollups that the rows of the accounts themselves show, without the rows further down. -/
def shownRollups : Forest → List Balance
  | nil => []
  | cons _ _ rollup below rest =>
    (if below.accounts.length = 1 then below.shownRollups else [rollup]) ++ rest.shownRollups

theorem length_accounts_eq_one_iff {forest : Forest} : forest.accounts.length = 1 ↔
    ∃ name own rollup below, forest = cons name own rollup below nil := by
  constructor
  · intro single
    cases forest with
    | nil => cases single
    | cons name own rollup below rest =>
      cases rest with
      | nil => exact ⟨name, own, rollup, below, rfl⟩
      | cons => simp [accounts] at single
  · rintro ⟨name, own, rollup, below, rfl⟩
    rfl

theorem depth_le_of_mem_rows {forest : Forest} {depth : Nat} {label : String} {row : AccountRow}
    (member : row ∈ forest.rows depth label) : depth ≤ row.depth := by
  induction forest generalizing depth label with
  | nil => cases member
  | cons name own rollup below rest belowIH restIH =>
    unfold rows at member
    rcases List.mem_append.mp member with here | later
    · split at here
      · exact belowIH here
      · rcases List.mem_cons.mp here with rfl | deeper
        · exact Nat.le_refl _
        · exact (Nat.le_succ depth).trans (belowIH deeper)
    · exact restIH later

theorem rollups_of_depth (forest : Forest) (depth : Nat) (label : String) :
    ((forest.rows depth label).filter fun row => row.depth = depth).map AccountRow.rollup =
      forest.shownRollups := by
  induction forest generalizing depth label with
  | nil => rfl
  | cons name own rollup below rest belowIH restIH =>
    have deeper (label : String) :
        ((below.rows (depth + 1) label).filter fun row => row.depth = depth) = [] := by
      rw [List.filter_eq_nil_iff]
      intro row member
      have := depth_le_of_mem_rows member
      simp
      omega
    unfold rows shownRollups
    rw [List.filter_append, List.map_append, restIH]
    congr 1
    split
    case h_1 =>
      rw [if_pos (length_accounts_eq_one_iff.mpr ⟨_, _, _, _, rfl⟩)]
      exact belowIH depth _
    case h_2 several =>
      have notOne : below.accounts.length ≠ 1 := by
        intro single
        obtain ⟨name, own, rollup, inner, same⟩ := length_accounts_eq_one_iff.mp single
        exact several name own rollup inner same
      simp [notOne, deeper]

end Forest

namespace Account

/-- Whether every account on a path, from the top down to its end, has exactly one account below it.
Then none of them has a row of its own. -/
def sharesRow (tree : Account) (path : List String) : Bool :=
  path.inits.all fun above => above.isEmpty || (tree.accountAt above).below.accounts.length == 1

variable {tree : Account} {bookings : List Booking} {commodity : Commodity} {path : List String}

theorem sharesRow_iff : tree.sharesRow path = true ↔
    ∀ above, above <+: path → above ≠ [] → (tree.accountAt above).below.accounts.length = 1 := by
  simp only [sharesRow, List.all_eq_true, List.mem_inits, Bool.or_eq_true, List.isEmpty_iff,
    beq_iff_eq, or_iff_not_imp_left]

theorem sharesRow_append_singleton (shares : tree.sharesRow path = true) {name : String}
    (single : (tree.accountAt (path ++ [name])).below.accounts.length = 1) :
    tree.sharesRow (path ++ [name]) = true := by
  rw [sharesRow_iff] at shares ⊢
  intro above within nonempty
  rcases List.prefix_concat_iff.mp within with same | higher
  · rw [same]
    exact single
  · exact shares above higher nonempty

/-- The bookings to accounts without a row. -/
def hidden (tree : Account) (bookings : List Booking) : List Booking :=
  bookings.filter fun booking => tree.sharesRow booking.account

theorem sumAt_hidden (shares : tree.sharesRow path = true) (commodity : Commodity) :
    Booking.sumAt (tree.hidden bookings) path commodity =
      Booking.sumAt bookings path commodity := by
  have same : Booking.entriesAt (tree.hidden bookings) path = Booking.entriesAt bookings path := by
    rw [Booking.entriesAt, hidden, List.filter_filter, Booking.entriesAt]
    congr 1
    refine List.filter_congr fun booking _ => ?_
    by_cases here : booking.account = path
    · simp [here, shares]
    · simp [here]
  rw [Booking.sumAt, same, Booking.sumAt]

theorem sumBelow_hidden (nonempty : path ≠ [])
    (several : (tree.accountAt path).below.accounts.length ≠ 1) (commodity : Commodity) :
    Booking.sumBelow (tree.hidden bookings) path commodity = 0 := by
  have none : Booking.entriesBelow (tree.hidden bookings) path = [] := by
    rw [Booking.entriesBelow, hidden, List.filter_filter, List.map_eq_nil_iff,
      List.filter_eq_nil_iff]
    intro booking _ both
    simp only [Bool.and_eq_true, decide_eq_true_eq] at both
    exact several (sharesRow_iff.mp both.2 path both.1 nonempty)
  rw [Booking.sumBelow, none, Balance.amountsIn_nil, Decimal.exactSum_nil]

/-- Accounts side by side, none of them below an account that has a row: what their rows show and
what is hidden below them make up their rollups. -/
theorem Represents.shown_add_hidden (represents : tree.Represents bookings)
    (bounded : Booking.Bounded bookings) {forest : Forest}
    (within : ∀ sub ∈ forest.accounts, tree.find? (path ++ [sub.1]) = some sub.2)
    (shares : tree.sharesRow path = true) (commodity : Commodity) :
    (forest.shownRollups.map fun rollup => (rollup.amountOf commodity).value).sum +
        (forest.names.map fun name =>
          Booking.sumBelow (tree.hidden bookings) (path ++ [name]) commodity).sum =
      (forest.accounts.map fun sub => (sub.2.rollup.amountOf commodity).value).sum := by
  induction forest generalizing path with
  | nil => simp [Forest.shownRollups, Forest.names, Forest.accounts]
  | cons name own rollup below rest belowIH restIH =>
    have found : tree.find? (path ++ [name]) = some ⟨own, rollup, below⟩ :=
      within (name, ⟨own, rollup, below⟩) (List.mem_cons_self ..)
    have here : tree.accountAt (path ++ [name]) = ⟨own, rollup, below⟩ := by
      rw [accountAt, found, Option.getD_some]
    have later := restIH (fun sub member => within sub (List.mem_cons_of_mem _ member)) shares
    have first : ((if below.accounts.length = 1 then below.shownRollups else [rollup]).map
          fun shown : Balance => (shown.amountOf commodity).value).sum +
          Booking.sumBelow (tree.hidden bookings) (path ++ [name]) commodity =
        (rollup.amountOf commodity).value := by
      by_cases single : below.accounts.length = 1
      · -- The own balance is hidden, and the rows below show the rest of the rollup.
        have sharesHere : tree.sharesRow (path ++ [name]) = true :=
          sharesRow_append_singleton shares (by rw [here]; exact single)
        have inner := belowIH (fun sub member => represents.find?_below found member) sharesHere
        have whole := represents.rollup_eq_own_add_below bounded found commodity
        have split : Booking.sumBelow (tree.hidden bookings) (path ++ [name]) commodity =
            Booking.sumAt (tree.hidden bookings) (path ++ [name]) commodity + _ :=
          Booking.sumBelow_eq_sumAt_add_next
            (ordered_find? represents.ordered found).nodup_names fun booking member =>
              represents.known_below found (List.mem_of_mem_filter member)
        have own := represents.value_own bounded (path ++ [name]) commodity
        rw [here] at own
        rw [sumAt_hidden sharesHere, ← own] at split
        rw [if_pos single, split]
        linarith
      · -- The row of the account shows everything below it.
        have none : Booking.sumBelow (tree.hidden bookings) (path ++ [name]) commodity = 0 :=
          sumBelow_hidden (by simp) (by rw [here]; exact single) commodity
        simp [single, none]
    unfold Forest.shownRollups
    simp only [Forest.names, Forest.accounts, List.map_append, List.sum_append, List.map_cons,
      List.sum_cons] at later ⊢
    linarith

theorem sumAt_root (named : ∀ booking ∈ bookings, booking.account ≠ []) (commodity : Commodity) :
    Booking.sumAt bookings [] commodity = 0 := by
  have none : Booking.entriesAt bookings [] = [] := by
    rw [Booking.entriesAt, List.map_eq_nil_iff, List.filter_eq_nil_iff]
    intro booking member
    simp [named booking member]
  rw [Booking.sumAt, none, Balance.amountsIn_nil, Decimal.exactSum_nil]

/-- The rows of depth one show everything that was booked but what went to accounts without a row.
-/
theorem rollup_eq_depthOne_add_hidden (done : (({} : Account).book bookings).fault = none)
    (named : ∀ booking ∈ bookings, booking.account ≠ []) (bounded : Booking.Bounded bookings) :
    let tree := (({} : Account).book bookings).state
    ∀ commodity, (tree.rollup.amountOf commodity).value =
      ((tree.rows.filter fun row => row.depth = 1).map fun row =>
        (row.rollup.amountOf commodity).value).sum +
      Decimal.exactSum (Balance.amountsIn ((tree.hidden bookings).map Booking.entry) commodity) := by
  intro tree commodity
  have represents : tree.Represents bookings := represents_empty.book done
  have top : tree.find? [] = some tree := find?_nil tree
  have shown : ((tree.rows.filter fun row => row.depth = 1).map fun row =>
      (row.rollup.amountOf commodity).value) =
        tree.below.shownRollups.map fun rollup => (rollup.amountOf commodity).value := by
    rw [rows, List.filter_cons_of_neg (by simp), ← Forest.rollups_of_depth tree.below 1 "",
      List.map_map]
    rfl
  have within : ∀ sub ∈ tree.below.accounts, tree.find? ([] ++ [sub.1]) = some sub.2 :=
    fun sub member => represents.find?_below top member
  have below := represents.shown_add_hidden bounded within (by simp [sharesRow]) commodity
  have whole := represents.rollup_eq_own_add_below bounded top commodity
  have own := represents.value_own bounded [] commodity
  rw [accountAt_nil, sumAt_root named] at own
  have split : Booking.sumBelow (tree.hidden bookings) [] commodity =
      Booking.sumAt (tree.hidden bookings) [] commodity + _ :=
    Booking.sumBelow_eq_sumAt_add_next represents.ordered.nodup_names fun booking member =>
      represents.known_below top (List.mem_of_mem_filter member)
  have namedHidden : ∀ booking ∈ tree.hidden bookings, booking.account ≠ [] :=
    fun booking member => named booking (List.mem_of_mem_filter member)
  rw [sumAt_root namedHidden] at split
  have everything : Booking.entriesBelow (tree.hidden bookings) [] =
      (tree.hidden bookings).map Booking.entry := by
    simp [Booking.entriesBelow]
  rw [shown, ← everything, ← Booking.sumBelow, split]
  linarith

/-- Amounts for an account and for the only account below it, and for another one. -/
def onlyChild : List Booking :=
  let dollars : Commodity := ⟨"$", true⟩
  [⟨["Bank"], dollars, .spelled "5"⟩, ⟨["Bank", "Giro"], dollars, .spelled "3.25"⟩,
   ⟨["Cash"], dollars, .spelled "-1"⟩]

theorem onlyChild_bounded : Booking.Bounded onlyChild := Booking.bounded_of_mentioned (by decide)

/-- The rows of depth one do not show the five dollars. -/
theorem onlyChild_depthOne_ne_rollup :
    (({} : Account).book onlyChild).fault = none ∧
    (∀ booking ∈ onlyChild, booking.account ≠ []) ∧ Booking.Bounded onlyChild ∧
    let tree := (({} : Account).book onlyChild).state
    ((tree.rows.filter fun row => row.depth = 1).map fun row =>
        (row.rollup.amountOf ⟨"$", true⟩).value).sum ≠
      (tree.rollup.amountOf ⟨"$", true⟩).value :=
  ⟨by decide, by decide, onlyChild_bounded, by decide +kernel⟩

theorem rollup_eq_depthOne_add_hidden_onlyChild :
    (({} : Account).book onlyChild).fault = none ∧
    (∀ booking ∈ onlyChild, booking.account ≠ []) ∧ Booking.Bounded onlyChild ∧
    let tree := (({} : Account).book onlyChild).state
    tree.hidden onlyChild = onlyChild.take 1 ∧
    ∀ commodity, (tree.rollup.amountOf commodity).value =
      ((tree.rows.filter fun row => row.depth = 1).map fun row =>
        (row.rollup.amountOf commodity).value).sum +
      Decimal.exactSum (Balance.amountsIn ((onlyChild.take 1).map Booking.entry) commodity) := by
  have done : (({} : Account).book onlyChild).fault = none := by decide
  have named : ∀ booking ∈ onlyChild, booking.account ≠ [] := by decide
  have hiddenEq : (({} : Account).book onlyChild).state.hidden onlyChild = onlyChild.take 1 := by
    decide
  refine ⟨done, named, onlyChild_bounded, hiddenEq, fun commodity => ?_⟩
  rw [← hiddenEq]
  exact rollup_eq_depthOne_add_hidden done named onlyChild_bounded commodity

end Account

end DoubleEntry

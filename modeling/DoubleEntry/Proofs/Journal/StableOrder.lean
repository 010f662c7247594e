import DoubleEntry.Sorting

/-! Sorting is stable. The dates of sorted transactions run in the direction of the first term, and
the transactions of one day stand in the order given, for descending terms as well as for ascending
ones. There is only one such order, so later terms and sorting again change nothing. -/

namespace DoubleEntry

instance : Std.LawfulEqOrd Date where
  eq_of_compare {a b} same := by
    obtain ⟨sameYear, rest⟩ := compareLex_eq_eq.mp same
    obtain ⟨sameMonth, sameDay⟩ := compareLex_eq_eq.mp rest
    cases a; cases b
    simp only [compareOn, Std.LawfulEqOrd.compare_eq_iff_eq] at sameYear sameMonth sameDay
    simp_all

namespace SortTerm

/-- Whether a date may stand in front of another one, in the direction of a term. -/
def InOrder (term : SortTerm) (front behind : Date) : Prop :=
  if term.descending then (compare behind front).isLE else (compare front behind).isLE

variable {term : SortTerm} {first second third : Date}

theorem InOrder.trans (front : term.InOrder first second) (behind : term.InOrder second third) :
    term.InOrder first third := by
  obtain ⟨key, _ | _⟩ := term
  · exact Std.TransCmp.isLE_trans front behind
  · exact Std.TransCmp.isLE_trans behind front

theorem InOrder.antisymm (front : term.InOrder first second) (behind : term.InOrder second first) :
    first = second := by
  obtain ⟨key, _ | _⟩ := term
  · exact Std.LawfulEqOrd.eq_of_compare (Std.OrientedCmp.isLE_antisymm front behind)
  · exact Std.LawfulEqOrd.eq_of_compare (Std.OrientedCmp.isLE_antisymm behind front)

theorem inOrder_total (term : SortTerm) (first second : Date) :
    term.InOrder first second ∨ term.InOrder second first := by
  have total (a b : Date) : (compare a b).isLE ∨ (compare b a).isLE := by
    by_cases front : (compare a b).isLE
    · exact .inl front
    · exact .inr (Ordering.isLE_of_eq_lt (Std.OrientedCmp.lt_of_not_isLE front))
  obtain ⟨key, _ | _⟩ := term
  · exact total first second
  · exact total second first

/-! The order of transactions. -/

theorem isLE_order_iff (term : SortTerm) (a b : Transaction) :
    (term.order a b).isLE = true ↔ term.InOrder a.date b.date := by
  obtain ⟨⟨⟩, _ | _⟩ := term
  · exact Iff.rfl
  · change (compare a.date b.date).swap.isLE = true ↔ (compare b.date a.date).isLE
    rw [← Std.OrientedCmp.eq_swap]

theorem order_eq_eq_iff (term : SortTerm) (a b : Transaction) :
    term.order a b = .eq ↔ a.date = b.date := by
  obtain ⟨⟨⟩, _ | _⟩ := term
  · exact Std.LawfulEqOrd.compare_eq_iff_eq
  · exact Ordering.swap_eq_eq.trans Std.LawfulEqOrd.compare_eq_iff_eq

theorem orderBy_of_date_eq (terms : List SortTerm) {a b : Transaction} (same : a.date = b.date) :
    orderBy terms a b = .eq := by
  induction terms with
  | nil => rfl
  | cons term terms ih => rw [orderBy, (order_eq_eq_iff term a b).mpr same, ih]; rfl

/-- What the first term does not tell apart is of one day, and no later term tells it apart. -/
theorem orderBy_cons (term : SortTerm) (later : List SortTerm) :
    orderBy (term :: later) = term.order := by
  funext a b
  rw [orderBy]
  cases order : term.order a b with
  | lt => rfl
  | gt => rfl
  | eq => exact orderBy_of_date_eq later ((order_eq_eq_iff term a b).mp order)

end SortTerm

/-- The transactions of a day, in the order given. -/
def transactionsOn (date : Date) (transactions : List Transaction) : List Transaction :=
  transactions.filter fun transaction => transaction.date = date

/-- Transactions in the order of a term, those of each day in the order given. -/
structure StablySorted (term : SortTerm) (given sorted : List Transaction) : Prop where
  ordered : sorted.Pairwise fun a b => term.InOrder a.date b.date
  days : ∀ date, transactionsOn date sorted = transactionsOn date given

variable {term : SortTerm} {given sorted other : List Transaction} {first : Transaction}
  {date : Date}

theorem transactionsOn_cons_self (first : Transaction) (later : List Transaction) :
    transactionsOn first.date (first :: later) = first :: transactionsOn first.date later :=
  List.filter_cons_of_pos (by simp)

theorem transactionsOn_cons_of_ne (other : first.date ≠ date) (later : List Transaction) :
    transactionsOn date (first :: later) = transactionsOn date later :=
  List.filter_cons_of_neg (by simp [other])

theorem count_transactionsOn (transaction : Transaction) (transactions : List Transaction) :
    (transactionsOn transaction.date transactions).count transaction =
      transactions.count transaction :=
  List.count_filter (p := fun other : Transaction => other.date = transaction.date) (by simp)

theorem perm_of_days (days : ∀ date, transactionsOn date sorted = transactionsOn date given) :
    sorted.Perm given := by
  refine List.perm_iff_count.mpr fun transaction => ?_
  rw [← count_transactionsOn, days, count_transactionsOn]

/-- The first one of ordered transactions comes before all of them. -/
theorem inOrder_of_mem {later : Transaction}
    (ordered : (first :: sorted).Pairwise fun a b => term.InOrder a.date b.date)
    (member : later ∈ first :: sorted) : term.InOrder first.date later.date := by
  obtain rfl | behind := List.mem_cons.mp member
  · exact (or_self _).mp (term.inOrder_total later.date later.date)
  · exact (List.pairwise_cons.mp ordered).1 later behind

/-- There is only one stable order: in front stands the first one of a day that none comes before. -/
theorem eq_of_days (ordered : sorted.Pairwise fun a b => term.InOrder a.date b.date)
    (ordered' : other.Pairwise fun a b => term.InOrder a.date b.date)
    (days : ∀ date, transactionsOn date sorted = transactionsOn date other) : sorted = other := by
  induction sorted generalizing other with
  | nil => exact (perm_of_days days).nil_eq
  | cons first sorted ih =>
    cases other with
    | nil => exact (perm_of_days days).eq_nil
    | cons second other =>
      have same := perm_of_days days
      have sameDay : first.date = second.date :=
        (inOrder_of_mem ordered (same.mem_iff.mpr (List.mem_cons_self ..))).antisymm
          (inOrder_of_mem ordered' (same.mem_iff.mp (List.mem_cons_self ..)))
      have firstDay := days second.date
      rw [← sameDay, transactionsOn_cons_self, sameDay, transactionsOn_cons_self] at firstDay
      obtain ⟨rfl, behind⟩ := List.cons.inj firstDay
      congr 1
      refine ih (List.pairwise_cons.mp ordered).2 (List.pairwise_cons.mp ordered').2 fun date => ?_
      by_cases here : first.date = date
      · exact here ▸ behind
      · have day := days date
        rwa [transactionsOn_cons_of_ne here, transactionsOn_cons_of_ne here] at day

/-! Sorted transactions. -/

theorem sortTransactions_perm (terms : List SortTerm) (given : List Transaction) :
    (sortTransactions terms given).Perm given :=
  List.mergeSort_perm given _

@[simp] theorem sortTransactions_nil (given : List Transaction) :
    sortTransactions [] given = given :=
  List.mergeSort_of_pairwise (List.pairwise_of_forall fun _ _ => rfl)

/-- Transactions in order stay as they are. -/
theorem sortTransactions_of_ordered (later : List SortTerm)
    (ordered : given.Pairwise fun a b => term.InOrder a.date b.date) :
    sortTransactions (term :: later) given = given := by
  rw [sortTransactions, SortTerm.orderBy_cons]
  exact List.mergeSort_of_pairwise (ordered.imp (term.isLE_order_iff _ _).mpr)

theorem stablySorted_sortTransactions (term : SortTerm) (later : List SortTerm)
    (given : List Transaction) :
    StablySorted term given (sortTransactions (term :: later) given) := by
  have trans (a b c : Transaction) (front : (term.order a b).isLE = true)
      (behind : (term.order b c).isLE = true) : (term.order a c).isLE = true := by
    rw [SortTerm.isLE_order_iff] at *
    exact front.trans behind
  have total (a b : Transaction) : ((term.order a b).isLE || (term.order b a).isLE) = true := by
    rw [Bool.or_eq_true, SortTerm.isLE_order_iff, SortTerm.isLE_order_iff]
    exact term.inOrder_total a.date b.date
  have permuted := sortTransactions_perm (term :: later) given
  rw [sortTransactions, SortTerm.orderBy_cons] at permuted ⊢
  refine ⟨(List.pairwise_mergeSort trans total given).imp (term.isLE_order_iff _ _).mp,
    fun date => ?_⟩
  -- The transactions of a day are in order as they stand, so sorting leaves them as they stand.
  have dayOrdered : (transactionsOn date given).Pairwise fun a b => (term.order a b).isLE := by
    refine List.pairwise_of_forall_mem_list fun a inside b inside' => ?_
    have sameDay : a.date = b.date :=
      (of_decide_eq_true (List.mem_filter.mp inside).2).trans
        (of_decide_eq_true (List.mem_filter.mp inside').2).symm
    rw [(term.order_eq_eq_iff a b).mpr sameDay]
    rfl
  have kept := (List.sublist_mergeSort trans total dayOrdered List.filter_sublist).filter
    fun transaction => transaction.date = date
  rw [transactionsOn, List.filter_filter] at kept
  simp only [Bool.and_self] at kept
  exact (kept.eq_of_length (permuted.filter _).length_eq.symm).symm

/-- Sorting gives the one stable order. Whatever the terms, the transactions stay the same ones;
without terms they stay as they are, and otherwise they are in the order of the first term, those of
each day in the order given, which nothing else is. So later terms do not matter, and sorting again
changes nothing; sorting what has been sorted by other terms keeps the order of each day from there.
Of a journal nothing changes but the order of the transactions, which is this one. -/
theorem stable_order_unique (given : List Transaction) :
    (∀ terms, (sortTransactions terms given).Perm given ∧
      sortTransactions terms (sortTransactions terms given) = sortTransactions terms given) ∧
    sortTransactions [] given = given ∧
    (∀ term later sorted,
      sortTransactions (term :: later) given = sorted ↔ StablySorted term given sorted) ∧
    (∀ term later, sortTransactions (term :: later) given = sortTransactions [term] given) ∧
    (∀ terms term later, StablySorted term (sortTransactions terms given)
      (sortTransactions (term :: later) (sortTransactions terms given))) ∧
    ∀ (journal : Journal) terms,
      (sortTransactions terms journal.transactions).Perm journal.transactions ∧
      journal.sort terms =
        { journal with transactions := sortTransactions terms journal.transactions } := by
  refine ⟨fun terms => ⟨sortTransactions_perm terms given, ?_⟩, sortTransactions_nil given,
    fun term later sorted => ⟨?_, fun stable => ?_⟩, fun term later => ?_,
    fun terms term later => stablySorted_sortTransactions term later _,
    fun journal terms => ⟨sortTransactions_perm terms journal.transactions, rfl⟩⟩
  · cases terms with
    | nil => rw [sortTransactions_nil, sortTransactions_nil]
    | cons term later =>
      exact sortTransactions_of_ordered later (stablySorted_sortTransactions term later given).ordered
  · rintro rfl
    exact stablySorted_sortTransactions term later given
  · have here := stablySorted_sortTransactions term later given
    exact eq_of_days here.ordered stable.ordered fun date =>
      (here.days date).trans (stable.days date).symm
  · rw [sortTransactions, sortTransactions, SortTerm.orderBy_cons, SortTerm.orderBy_cons]

end DoubleEntry

import DoubleEntry.Proofs.AccountTree.Rollup

/-! Bookings within bounds. Every balance on the way of a booking adds up amounts that are among all
of them, so no sum is too large and the whole run succeeds. -/

namespace DoubleEntry

/-- A posting succeeds behind others if their amounts and its own stay within bounds together. -/
theorem Balance.fault_post_eq_none {before : Balance} {entries : List (Commodity × Decimal)}
    {commodity : Commodity} {amount : Decimal} (run : postAll ∅ entries = ⟨before, none⟩)
    (bounded : ∀ other,
      Decimal.gross (amountsIn (entries ++ [(commodity, amount)]) other) < 2 ^ 96) :
    (before.post commodity amount).fault = none := by
  have done : (postAll ∅ (entries ++ [(commodity, amount)])).fault = none := by
    refine fault_postAll_eq_none fun other => ?_
    obtain ⟨sum, summed, _⟩ := Decimal.sumFrom?_of_gross_lt (bounded other)
    exact ⟨sum, summed⟩
  rw [postAll] at run
  rw [postAll, Progress.foldl_append, run, Progress.andThen_ok, Progress.foldl_singleton] at done
  exact done

namespace Account

variable {account tree : Account} {commodity : Commodity} {amount : Decimal} {path : List String}
  {bookings more : List Booking} {booking : Booking}

/-- A posting succeeds if it does in the rollup of every account on its way and in the own balance of
the last one. -/
theorem fault_post_eq_none (ordered : account.below.Ordered)
    (rollups : ∀ above, above <+: path →
      ((account.accountAt above).rollup.post commodity amount).fault = none)
    (own : ((account.accountAt path).own.post commodity amount).fault = none) :
    (account.post commodity amount path).fault = none := by
  induction path generalizing account with
  | nil =>
    rw [accountAt_nil] at own
    have here := rollups [] (List.prefix_refl [])
    rw [accountAt_nil] at here
    exact Progress.fault_andThen_eq_none_iff.mpr ⟨here, own⟩
  | cons name path ih =>
    have here := rollups [] List.nil_prefix
    rw [accountAt_nil] at here
    refine Progress.fault_andThen_eq_none_iff.mpr ⟨here, ?_⟩
    have inner : (((account.below.find? name).getD {}).post commodity amount path).fault = none := by
      refine ih (ordered.getD_find? name) (fun above within => ?_) ?_
      · rw [← accountAt_cons]
        exact rollups (name :: above) (List.cons_prefix_cons.mpr ⟨rfl, within⟩)
      · rw [← accountAt_cons]
        exact own
    have altered : account.below.alter name (post commodity amount path) = _ :=
      Forest.alter_eq_put ordered (post commodity amount path)
    show (account.below.alter name (post commodity amount path)).fault = none
    rw [altered]
    exact inner

/-- A booking within the bounds of a tree succeeds. -/
theorem Represents.fault_post_eq_none (represents : tree.Represents bookings)
    (bounded : Booking.Bounded (bookings ++ [booking])) :
    (tree.post booking.commodity booking.amount booking.account).fault = none := by
  refine Account.fault_post_eq_none represents.ordered (fun above onPath => ?_) ?_
  · refine Balance.fault_post_eq_none (represents.rollup above) ?_
    have below := bounded.entriesBelow above
    rw [Booking.entriesBelow_concat onPath] at below
    exact below
  · refine Balance.fault_post_eq_none (represents.own booking.account) ?_
    have here := bounded.entriesAt booking.account
    rw [Booking.entriesAt_concat] at here
    exact here

theorem Represents.fault_book_eq_none (represents : tree.Represents bookings)
    (bounded : Booking.Bounded (bookings ++ more)) : (tree.book more).fault = none := by
  induction more generalizing tree bookings with
  | nil => rfl
  | cons booking more ih =>
    rw [List.append_cons] at bounded
    have first := represents.fault_post_eq_none (bounded.sublist (List.sublist_append_left ..))
    refine Progress.fault_foldl_cons_eq_none_iff.mpr ⟨first, ?_⟩
    exact ih (represents.post first) bounded

/-- Bookings within bounds succeed one after the other, and the tree has exactly them in it. -/
theorem exists_represents (bounded : Booking.Bounded bookings) :
    ∃ tree, ({} : Account).book bookings = ⟨tree, none⟩ ∧ tree.Represents bookings := by
  have done : (({} : Account).book bookings).fault = none :=
    represents_empty.fault_book_eq_none bounded
  exact ⟨_, Progress.eq_of_fault_eq_none done, represents_empty.book done⟩

end Account

end DoubleEntry

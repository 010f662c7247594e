import DoubleEntry.Balance
import DoubleEntry.Proofs.Decimal.RunningSum
import DoubleEntry.Proofs.Progress

/-! Adding up amounts commodity by commodity. A run of postings to a balance is, for every
commodity, the running sum of the amounts of that commodity, in their order. -/

namespace DoubleEntry.Balance

/-- The amounts of a commodity among some entries, in order. -/
def amountsIn (entries : List (Commodity × Decimal)) (commodity : Commodity) : List Decimal :=
  entries.filterMap fun entry => if entry.1 = commodity then some entry.2 else none

variable {balance : Balance} {commodity other : Commodity} {amount sum : Decimal}
  {entries : List (Commodity × Decimal)}

@[simp] theorem amountsIn_nil (commodity : Commodity) : amountsIn [] commodity = [] := rfl

theorem amountsIn_cons_self (commodity : Commodity) (amount : Decimal)
    (entries : List (Commodity × Decimal)) :
    amountsIn ((commodity, amount) :: entries) commodity =
      amount :: amountsIn entries commodity := by
  simp [amountsIn]

theorem amountsIn_cons_of_ne (distinct : commodity ≠ other) (amount : Decimal)
    (entries : List (Commodity × Decimal)) :
    amountsIn ((commodity, amount) :: entries) other = amountsIn entries other := by
  simp [amountsIn, distinct]

@[simp] theorem amountOf_empty (commodity : Commodity) :
    (∅ : Balance).amountOf commodity = .zero := rfl

theorem amountOf_insert_self (balance : Balance) (commodity : Commodity) (amount : Decimal) :
    amountOf (balance.insert commodity amount) commodity = amount := by
  simp [amountOf]

theorem amountOf_insert_of_ne (balance : Balance) (distinct : commodity ≠ other)
    (amount : Decimal) :
    amountOf (balance.insert commodity amount) other = balance.amountOf other := by
  rw [amountOf, SortedMap.find?_insert_of_ne balance distinct.symm, amountOf]

theorem post_of_some (added : (balance.amountOf commodity).add? amount = some sum) :
    balance.post commodity amount = ⟨balance.insert commodity sum, none⟩ := by
  simp [post, added]

theorem fault_post_eq_none_iff :
    (balance.post commodity amount).fault = none ↔
      ∃ sum, (balance.amountOf commodity).add? amount = some sum := by
  cases added : (balance.amountOf commodity).add? amount with
  | none => simp [post, added]
  | some sum => simp [post, added]

/-- What a posting that succeeds leaves of every running sum: one amount less to add. -/
theorem sumFrom?_post (done : (balance.post commodity amount).fault = none) (other : Commodity)
    (entries : List (Commodity × Decimal)) :
    Decimal.sumFrom? (amountOf (balance.post commodity amount).state other)
        (amountsIn entries other) =
      Decimal.sumFrom? (balance.amountOf other)
        (amountsIn ((commodity, amount) :: entries) other) := by
  obtain ⟨sum, added⟩ := fault_post_eq_none_iff.mp done
  rw [post_of_some added]
  by_cases same : commodity = other
  · subst same
    rw [amountOf_insert_self, amountsIn_cons_self, Decimal.sumFrom?_cons, added, Option.bind_some]
  · rw [amountOf_insert_of_ne balance same, amountsIn_cons_of_ne same]

/-- A run of postings that does not stop is a running sum for every commodity. -/
theorem sumFrom?_postAll (done : (balance.postAll entries).fault = none) (commodity : Commodity) :
    Decimal.sumFrom? (balance.amountOf commodity) (amountsIn entries commodity) =
      some (amountOf (balance.postAll entries).state commodity) := by
  induction entries generalizing balance with
  | nil => rfl
  | cons entry entries ih =>
    obtain ⟨first, rest⟩ := Progress.fault_foldl_cons_eq_none_iff.mp done
    rw [postAll, Progress.foldl_cons_of_done entries first]
    exact (sumFrom?_post first commodity entries).symm.trans (ih rest)

theorem fault_postAll_eq_none
    (sums : ∀ commodity, ∃ sum,
      Decimal.sumFrom? (balance.amountOf commodity) (amountsIn entries commodity) = some sum) :
    (balance.postAll entries).fault = none := by
  induction entries generalizing balance with
  | nil => rfl
  | cons entry entries ih =>
    obtain ⟨commodity, amount⟩ := entry
    have first : (balance.post commodity amount).fault = none := by
      obtain ⟨sum, summed⟩ := sums commodity
      rw [amountsIn_cons_self, Decimal.sumFrom?_cons] at summed
      obtain ⟨next, added, _⟩ := Option.bind_eq_some_iff.mp summed
      exact fault_post_eq_none_iff.mpr ⟨next, added⟩
    refine Progress.fault_foldl_cons_eq_none_iff.mpr ⟨first, ih fun other => ?_⟩
    rw [sumFrom?_post first other entries]
    exact sums other

/-- After a run of postings a balance mentions what it has mentioned and what was posted. -/
theorem isSome_find?_postAll (done : (balance.postAll entries).fault = none)
    (commodity : Commodity) :
    ((balance.postAll entries).state.find? commodity).isSome ↔
      (balance.find? commodity).isSome ∨ amountsIn entries commodity ≠ [] := by
  induction entries generalizing balance with
  | nil => simp [postAll]
  | cons entry entries ih =>
    obtain ⟨posted, amount⟩ := entry
    obtain ⟨first, rest⟩ := Progress.fault_foldl_cons_eq_none_iff.mp done
    obtain ⟨sum, added⟩ := fault_post_eq_none_iff.mp first
    rw [postAll, Progress.foldl_cons_of_done entries first]
    refine (ih rest).trans ?_
    simp only [post_of_some added]
    by_cases same : posted = commodity
    · subst same
      simp [amountsIn_cons_self]
    · rw [SortedMap.find?_insert_of_ne balance (Ne.symm same), amountsIn_cons_of_ne same]

end DoubleEntry.Balance

import DoubleEntry.Proofs.Balance.Posting
import DoubleEntry.Proofs.SortedMap

/-! Additions that fail. A commodity that a balance does not mention, or mentions with zero, takes any
amount; so an amount that is too large meets an entry, and the entry stays as it was. Adding another
balance stops at the first sum that is too large: what is ordered before it has been added, and
nothing else has changed. -/

namespace DoubleEntry.Balance

/-- The amounts of the commodities that are ordered before `commodity`. -/
def before (balance : Balance) (commodity : Commodity) : Balance :=
  balance.filter fun other _ => compare other commodity = .lt

variable {balance other : Balance} {commodity : Commodity} {amount : Decimal}
  {entries : List (Commodity × Decimal)} {overflow : Overflow}

theorem find?_before (balance : Balance) (limit commodity : Commodity) :
    (balance.before limit).find? commodity =
      if compare commodity limit = .lt then balance.find? commodity else none := by
  rw [before, SortedMap.find?_filter]
  cases balance.find? commodity with
  | none => simp
  | some amount => simp [Option.filter]

/-! One amount. -/

theorem find?_of_add?_eq_none (failed : (balance.amountOf commodity).add? amount = none) :
    balance.find? commodity = some (balance.amountOf commodity) := by
  rw [amountOf] at failed ⊢
  cases found : balance.find? commodity with
  | none =>
    rw [found, Option.getD_none, Decimal.add?_zero_left rfl] at failed
    cases failed
  | some total => rfl

/-- Everything that a posting can do. -/
theorem post_cases (balance : Balance) (commodity : Commodity) (amount : Decimal) :
    (∃ sum, (balance.amountOf commodity).add? amount = some sum ∧
      balance.post commodity amount = ⟨balance.insert commodity sum, none⟩) ∨
    ∃ total, balance.find? commodity = some total ∧ total.add? amount = none ∧
      balance.post commodity amount = ⟨balance, some ⟨commodity, total, amount⟩⟩ := by
  cases added : (balance.amountOf commodity).add? amount with
  | some sum => exact .inl ⟨sum, rfl, post_of_some added⟩
  | none =>
    have mentioned := find?_of_add?_eq_none added
    refine .inr ⟨_, mentioned, added, ?_⟩
    simp only [post, added, SortedMap.insert_of_find? mentioned]

theorem find?_post_of_ne {posted : Commodity} (distinct : commodity ≠ posted) :
    (balance.post posted amount).state.find? commodity = balance.find? commodity := by
  obtain ⟨sum, _, run⟩ | ⟨total, _, _, run⟩ := post_cases balance posted amount
  · rw [run, SortedMap.find?_insert_of_ne _ distinct]
  · rw [run]

/-! Several amounts. -/

/-- A commodity that is not posted stays as it was, whether the run stops or not. -/
theorem find?_postAll_of_absent (absent : amountsIn entries commodity = []) :
    (balance.postAll entries).state.find? commodity = balance.find? commodity := by
  induction entries generalizing balance with
  | nil => rfl
  | cons entry entries ih =>
    obtain ⟨posted, amount⟩ := entry
    have distinct : commodity ≠ posted := by
      rintro rfl
      rw [amountsIn_cons_self] at absent
      cases absent
    rw [amountsIn_cons_of_ne distinct.symm] at absent
    have first : (balance.post posted amount).state.find? commodity = balance.find? commodity :=
      find?_post_of_ne distinct
    rw [← first, postAll, Progress.foldl]
    rcases balance.post posted amount with ⟨next, _ | fault⟩
    · exact ih absent
    · rfl

theorem amountsIn_entries (balance : Balance) (commodity : Commodity) :
    amountsIn balance.entries commodity = (balance.find? commodity).toList :=
  SortedMap.filterMap_entries balance commodity

theorem find?_merge_of_absent (absent : other.find? commodity = none) :
    (balance.merge other).state.find? commodity = balance.find? commodity :=
  find?_postAll_of_absent (by rw [amountsIn_entries, absent, Option.toList_none])

/-- A balance that has been added has added each of its amounts. -/
theorem find?_merge_of_done (done : (balance.merge other).fault = none)
    (found : other.find? commodity = some amount) :
    ∃ sum, (balance.amountOf commodity).add? amount = some sum ∧
      (balance.merge other).state.find? commodity = some sum := by
  have amounts : amountsIn other.entries commodity = [amount] := by
    rw [amountsIn_entries, found, Option.toList_some]
  have run := sumFrom?_postAll done commodity
  have mentioned := (isSome_find?_postAll done commodity).mpr (.inr (by simp [amounts]))
  obtain ⟨sum, present⟩ := Option.isSome_iff_exists.mp mentioned
  have shown : amountOf (balance.postAll other.entries).state commodity = sum := by
    rw [amountOf, present, Option.getD_some]
  rw [amounts, shown, Decimal.sumFrom?_cons] at run
  obtain ⟨next, added, same⟩ := Option.bind_eq_some_iff.mp run
  cases same
  exact ⟨sum, added, present⟩

/-- A merge that stops has added what is ordered before the commodity at which it stops, and nothing
else; the error names this commodity with what both balances say of it. -/
theorem merge_stops (failed : (balance.merge other).fault = some overflow) :
    other.find? overflow.commodity = some overflow.amount ∧
    balance.find? overflow.commodity = some overflow.total ∧
    overflow.total.add? overflow.amount = none ∧
    balance.merge (other.before overflow.commodity) = ⟨(balance.merge other).state, none⟩ := by
  obtain ⟨early, ⟨commodity, amount⟩, late, last, split, run, stops⟩ := Progress.foldl_stops failed
  obtain ⟨sum, _, goesOn⟩ | ⟨total, mentioned, tooLarge, unchanged⟩ :=
    post_cases last commodity amount
  · rw [goesOn] at stops
    cases congrArg Progress.fault stops
  · have sameState : last = (balance.merge other).state :=
      congrArg Progress.state (unchanged.symm.trans stops)
    cases congrArg Progress.fault (unchanged.symm.trans stops)
    have inFront : (other.before commodity).entries = early := SortedMap.entries_filter_lt split
    have added : balance.merge (other.before commodity) = ⟨last, none⟩ := by
      rw [merge, inFront]
      exact run
    have absent : (other.before commodity).find? commodity = none := by
      simp [find?_before, Std.ReflOrd.compare_self]
    have untouched : last.find? commodity = balance.find? commodity :=
      (congrArg (·.state.find? commodity) added).symm.trans (find?_merge_of_absent absent)
    refine ⟨SortedMap.mem_entries_iff.mp (by simp [split]), ?_, tooLarge, sameState ▸ added⟩
    rw [← untouched, mentioned]

/-- What an addition leaves of a balance, whether it fails or not. Adding an amount that makes a sum
changes the entry of its commodity and no other one; otherwise the balance stays as it was, and the
error names the commodity, what the balance has of it, and the amount. Adding another balance stops
at a commodity that both mention and whose amounts make no sum. The commodities ordered before it
have been added, and this one and all later ones are untouched. -/
theorem failed_addition_keeps (balance : Balance) :
    (∀ commodity amount,
      (∃ sum, (balance.amountOf commodity).add? amount = some sum ∧
        (balance.post commodity amount).fault = none ∧
        (balance.post commodity amount).state.find? commodity = some sum ∧
        ∀ other, other ≠ commodity →
          (balance.post commodity amount).state.find? other = balance.find? other) ∨
      ∃ total, balance.find? commodity = some total ∧ total.add? amount = none ∧
        balance.post commodity amount = ⟨balance, some ⟨commodity, total, amount⟩⟩) ∧
    ∀ other overflow, (balance.merge other).fault = some overflow →
      other.find? overflow.commodity = some overflow.amount ∧
      balance.find? overflow.commodity = some overflow.total ∧
      overflow.total.add? overflow.amount = none ∧
      balance.merge (other.before overflow.commodity) = ⟨(balance.merge other).state, none⟩ ∧
      (∀ commodity amount, other.find? commodity = some amount →
        compare commodity overflow.commodity = .lt →
        ∃ sum, (balance.amountOf commodity).add? amount = some sum ∧
          (balance.merge other).state.find? commodity = some sum) ∧
      ∀ commodity, other.find? commodity = none ∨ compare commodity overflow.commodity ≠ .lt →
        (balance.merge other).state.find? commodity = balance.find? commodity := by
  constructor
  · intro commodity amount
    obtain ⟨sum, added, run⟩ | failed := post_cases balance commodity amount
    · refine .inl ⟨sum, added, by rw [run], ?_, fun other => find?_post_of_ne⟩
      rw [run, SortedMap.find?_insert_self]
    · exact .inr failed
  · intro other overflow failed
    obtain ⟨given, mentioned, tooLarge, added⟩ := merge_stops failed
    have state : (balance.merge other).state =
        (balance.merge (other.before overflow.commodity)).state := by rw [added]
    refine ⟨given, mentioned, tooLarge, added, fun commodity amount found less => ?_,
      fun commodity apart => ?_⟩
    · rw [state]
      refine find?_merge_of_done (by rw [added]) ?_
      rw [find?_before, if_pos less, found]
    · rw [state]
      refine find?_merge_of_absent ?_
      rw [find?_before]
      split
      case isTrue less => exact apart.resolve_right (not_not_intro less)
      case isFalse => rfl

/-- The largest amount of bitcoins, and dollars that have come to nothing. -/
def fullOfCoins : Balance :=
  .ofList [(⟨" BTC", false⟩, .spelled "79228162514264337593543950335"),
    (⟨" USD", false⟩, .spelled "0.00")]

/-- Some gold, another bitcoin and some dollars. -/
def threeMore : Balance :=
  .ofList [(⟨" AU", false⟩, .spelled "2.50"), (⟨" BTC", false⟩, .spelled "1"),
    (⟨" USD", false⟩, .spelled "7")]

theorem failed_addition_keeps_threeMore :
    let overflow : Overflow :=
      ⟨⟨" BTC", false⟩, .spelled "79228162514264337593543950335", .spelled "1"⟩
    (fullOfCoins.merge threeMore).fault = some overflow ∧
    fullOfCoins.post ⟨" BTC", false⟩ (.spelled "1") = ⟨fullOfCoins, some overflow⟩ ∧
    (∃ sum, (fullOfCoins.amountOf ⟨" AU", false⟩).add? (.spelled "2.50") = some sum ∧
      (fullOfCoins.merge threeMore).state.find? ⟨" AU", false⟩ = some sum) ∧
    (fullOfCoins.merge threeMore).state.find? ⟨" BTC", false⟩ = some overflow.total ∧
    (fullOfCoins.merge threeMore).state.find? ⟨" USD", false⟩ = some (.spelled "0.00") := by
  intro overflow
  have failed : (fullOfCoins.merge threeMore).fault = some overflow := by decide +kernel
  obtain ⟨one, several⟩ := failed_addition_keeps fullOfCoins
  obtain ⟨_, mentioned, tooLarge, _, added, untouched⟩ := several threeMore overflow failed
  refine ⟨failed, ?_, added _ _ (by decide +kernel) (by decide +kernel), ?_, ?_⟩
  · obtain ⟨sum, made, _⟩ | ⟨total, found, _, same⟩ := one overflow.commodity overflow.amount
    · rw [amountOf, mentioned, Option.getD_some, tooLarge] at made
      cases made
    · cases found.symm.trans mentioned
      exact same
  · exact (untouched _ (.inr (by decide +kernel))).trans mentioned
  · exact (untouched _ (.inr (by decide +kernel))).trans (by decide +kernel)

end DoubleEntry.Balance

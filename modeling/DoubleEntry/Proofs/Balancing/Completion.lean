import DoubleEntry.Proofs.Balancing.Acceptance

/-! Completing transactions. The elided posting takes over what the others leave, commodity by
commodity; all else stays as it is, and a completed transaction is complete. -/

namespace DoubleEntry.Transaction

/-- What the amounts of a transaction leave over: the negated sum of every commodity that is
written, and of no other. -/
structure IsRemainder (transaction : Transaction) (amounts : Balance) : Prop where
  mentions : ∀ commodity, commodity ∈ amounts.keys ↔ commodity ∈ transaction.commodities
  negates : ∀ commodity ∈ transaction.commodities, ∃ sum,
    Decimal.sumFrom? .zero (transaction.amountsOf commodity) = some sum ∧
      amounts.find? commodity = some (-sum)

/-- A transaction with all its amounts that differs from another one only in what was left out. -/
structure CompletedBy (transaction completed : Transaction) : Prop where
  date : completed.date = transaction.date
  description : completed.description = transaction.description
  length : completed.postings.length = transaction.postings.length
  accounts : completed.postings.map Posting.account = transaction.postings.map Posting.account
  complete : ∀ posting ∈ completed.postings, posting.isElided = false
  kept : ∀ (index : Nat) (posting : Posting), transaction.postings[index]? = some posting →
    posting.isElided = false → completed.postings[index]? = some posting
  filled : ∀ (index : Nat) (posting : Posting), transaction.postings[index]? = some posting →
    posting.isElided = true → ∃ amounts, transaction.IsRemainder amounts ∧
      completed.postings[index]? = some { posting with amounts := some amounts }

variable {transaction completed : Transaction} {commodity : Commodity} {totals amounts : Balance}

theorem elisions_eq_zero_iff :
    transaction.elisions = 0 ↔ ∀ posting ∈ transaction.postings, posting.isElided = false := by
  simp [elisions, List.countP_eq_zero]

theorem completed_of_elisions_eq_zero (none : transaction.elisions = 0) :
    transaction.completed = .ok transaction := by
  simp [completed, none]

theorem completed_of_elisions_eq_one (one : transaction.elisions = 1) :
    transaction.completed = match transaction.totals with
      | .ok totals => .ok (transaction.fill totals.neg)
      | .error overflow => .error (.overflow overflow) := by
  cases summed : transaction.totals <;> simp [completed, one, summed]

theorem completed_of_two_le_elisions (many : 2 ≤ transaction.elisions) :
    transaction.completed =
      .error (.ambiguousElision transaction.header transaction.elisions) := by
  unfold completed
  split
  · omega
  · omega
  · rfl

theorem getElem?_fill (transaction : Transaction) (amounts : Balance) (index : Nat) :
    (transaction.fill amounts).postings[index]? = transaction.postings[index]?.map fun posting =>
      if posting.isElided then { posting with amounts := some amounts } else posting := by
  rw [fill, List.getElem?_map]

theorem complete_fill (transaction : Transaction) (amounts : Balance) :
    ∀ posting ∈ (transaction.fill amounts).postings, posting.isElided = false := by
  intro posting member
  obtain ⟨original, _, rfl⟩ := List.mem_map.mp member
  split
  · rfl
  · rename_i written
    exact Bool.eq_false_iff.mpr written

theorem isRemainder_neg (summed : transaction.totals = .ok totals) :
    transaction.IsRemainder totals.neg := by
  constructor
  · intro commodity
    rw [SortedMap.mem_keys_iff, Balance.neg, SortedMap.find?_mapValues, Option.isSome_map,
      isSome_find?_totals summed]
  · intro commodity mentioned
    obtain ⟨total, found⟩ :=
      Option.isSome_iff_exists.mp ((isSome_find?_totals summed commodity).mpr mentioned)
    refine ⟨total, ?_, ?_⟩
    · rw [sumFrom?_amountsOf summed, Balance.amountOf, found, Option.getD_some]
    · rw [Balance.neg, SortedMap.find?_mapValues, found, Option.map_some]

theorem completedBy_self (none : transaction.elisions = 0) :
    transaction.CompletedBy transaction := by
  have complete := elisions_eq_zero_iff.mp none
  refine ⟨rfl, rfl, rfl, rfl, complete, fun _ _ found _ => found, ?_⟩
  intro index posting found elided
  rw [complete posting (List.mem_of_getElem? found)] at elided
  cases elided

theorem completedBy_fill (remainder : transaction.IsRemainder amounts) :
    transaction.CompletedBy (transaction.fill amounts) := by
  refine ⟨rfl, rfl, ?_, ?_, complete_fill transaction amounts, ?_, ?_⟩
  · rw [fill, List.length_map]
  · rw [fill, List.map_map]
    refine List.map_congr_left fun posting _ => ?_
    simp only [Function.comp_apply]
    split <;> rfl
  · intro index posting found written
    simp [getElem?_fill, found, written]
  · intro index posting found elided
    exact ⟨amounts, remainder, by simp [getElem?_fill, found, elided]⟩

/-- Completing a transaction changes nothing but what was left out. -/
theorem completedBy_of_completed (done : transaction.completed = .ok completed) :
    transaction.CompletedBy completed := by
  rcases Nat.lt_trichotomy transaction.elisions 1 with none | one | many
  · have none : transaction.elisions = 0 := by omega
    rw [completed_of_elisions_eq_zero none] at done
    cases done
    exact completedBy_self none
  · rw [completed_of_elisions_eq_one one] at done
    cases summed : transaction.totals with
    | error overflow => simp [summed] at done
    | ok totals =>
      rw [summed] at done
      cases done
      exact completedBy_fill (isRemainder_neg summed)
  · rw [completed_of_two_le_elisions many] at done
    cases done

theorem completed_completed (done : transaction.completed = .ok completed) :
    completed.completed = .ok completed :=
  completed_of_elisions_eq_zero (elisions_eq_zero_iff.mpr (completedBy_of_completed done).complete)

/-- A commodity has the amounts that were written and, for each elided posting, the one that was
filled in. -/
theorem amountsOf_fill_perm (transaction : Transaction) (amounts : Balance)
    (commodity : Commodity) :
    ((transaction.fill amounts).amountsOf commodity).Perm
      ((List.replicate transaction.elisions (amounts.find? commodity).toList).flatten ++
        transaction.amountsOf commodity) := by
  simp only [amountsOf, elisions, fill]
  induction transaction.postings with
  | nil => exact .refl _
  | cons posting postings ih =>
    cases written : posting.amounts with
    | none =>
      have elided : posting.isElided = true := by rw [Posting.isElided, written]; rfl
      rw [List.map_cons, if_pos elided, List.countP_cons_of_pos elided, List.replicate_succ,
        List.flatten_cons, List.append_assoc]
      cases found : amounts.find? commodity with
      | none => simpa [written, found] using ih
      | some amount => simpa [written, found] using ih
    | some balance =>
      have kept : ¬ posting.isElided = true := by rw [Posting.isElided, written]; simp
      rw [List.map_cons, if_neg kept, List.countP_cons_of_neg kept]
      cases found : balance.find? commodity with
      | none => simpa [written, found] using ih
      | some amount =>
        simp only [List.filterMap_cons, written, Option.bind_some, found]
        exact (ih.cons amount).trans List.perm_middle.symm

/-- The amounts of a completed transaction are those that were written and what they leave over. -/
theorem amountsOf_fill_one (one : transaction.elisions = 1) (amounts : Balance)
    (commodity : Commodity) :
    ((transaction.fill amounts).amountsOf commodity).Perm
      ((amounts.find? commodity).toList ++ transaction.amountsOf commodity) := by
  simpa [one] using amountsOf_fill_perm transaction amounts commodity

theorem find?_neg_totals (summed : transaction.totals = .ok totals) (commodity : Commodity) :
    totals.neg.find? commodity = none ∧ transaction.amountsOf commodity = [] ∨
      totals.neg.find? commodity = some (-totals.amountOf commodity) := by
  rw [Balance.neg, SortedMap.find?_mapValues]
  cases found : totals.find? commodity with
  | none =>
    refine .inl ⟨rfl, ?_⟩
    by_contra written
    have mentioned := (isSome_find?_totals summed commodity).mpr (amountsOf_ne_nil_iff.mp written)
    rw [found] at mentioned
    cases mentioned
  | some total =>
    refine .inr ?_
    rw [Option.map_some, Balance.amountOf, found, Option.getD_some]

theorem exactSum_fill_neg (one : transaction.elisions = 1)
    (summed : transaction.totals = .ok totals)
    (exact : (totals.amountOf commodity).value = transaction.exactSum commodity) :
    (transaction.fill totals.neg).exactSum commodity = 0 := by
  rw [exactSum, Decimal.exactSum_perm (amountsOf_fill_one one totals.neg commodity)]
  rcases find?_neg_totals summed commodity with ⟨absent, empty⟩ | found
  · rw [absent, empty]
    rfl
  · rw [found, Option.toList_some, List.singleton_append, Decimal.exactSum_cons, Decimal.value_neg,
      exact, exactSum, neg_add_cancel]

/-- With what it leaves over, a commodity has amounts within twice the bound and no finer ones. -/
theorem grossAt_fill_neg_le {scale : Nat} (one : transaction.elisions = 1)
    (summed : transaction.totals = .ok totals)
    (exact : Decimal.IsSum (transaction.amountsOf commodity) (totals.amountOf commodity))
    (finer : Decimal.largestScale (transaction.amountsOf commodity) ≤ scale) :
    (∀ amount ∈ (transaction.fill totals.neg).amountsOf commodity, amount.scale ≤ scale) ∧
      Decimal.grossAt scale ((transaction.fill totals.neg).amountsOf commodity) ≤
        2 * Decimal.grossAt scale (transaction.amountsOf commodity) := by
  have permuted := amountsOf_fill_one one totals.neg commodity
  have small := exact.natAbs_coefficientAt_le finer
  constructor
  · intro amount member
    rcases List.mem_append.mp (permuted.subset member) with filled | written
    · rcases find?_neg_totals summed commodity with ⟨absent, _⟩ | found
      · simp [absent] at filled
      · rw [found, Option.toList_some, List.mem_singleton] at filled
        rw [filled]
        exact exact.scale_le.trans finer
    · exact (Decimal.scale_le_largestScale written).trans finer
  · rw [Decimal.grossAt_perm _ permuted]
    rcases find?_neg_totals summed commodity with ⟨absent, _⟩ | found
    · rw [absent, Option.toList_none, List.nil_append]
      omega
    · rw [found, Option.toList_some, List.singleton_append, Decimal.grossAt, List.map_cons,
        List.sum_cons, ← Decimal.grossAt, Decimal.coefficientAt_neg, Int.natAbs_neg]
      omega

/-- With what it leaves over, a commodity has amounts that are summed up exactly as well. -/
theorem sumFrom?_fill_neg (one : transaction.elisions = 1)
    (summed : transaction.totals = .ok totals)
    (bounded : Decimal.gross (transaction.amountsOf commodity) < 2 ^ 95)
    (exact : Decimal.IsSum (transaction.amountsOf commodity) (totals.amountOf commodity)) :
    ∃ sum, Decimal.sumFrom? .zero ((transaction.fill totals.neg).amountsOf commodity) = some sum ∧
      sum.value = 0 := by
  obtain ⟨within, double⟩ := grossAt_fill_neg_le one summed exact (Nat.le_refl _)
  have fits : (Decimal.zero.coefficientAt
      (Decimal.largestScale (transaction.amountsOf commodity))).natAbs +
      Decimal.grossAt (Decimal.largestScale (transaction.amountsOf commodity))
        ((transaction.fill totals.neg).amountsOf commodity) < 2 ^ 96 := by
    rw [Decimal.coefficientAt_zero]
    rw [← Decimal.gross] at double
    omega
  obtain ⟨sum, sumEq, same, _⟩ := Decimal.sumFrom?_of_grossAt_lt
    (Decimal.largestScale_le_maximum _) (Nat.zero_le _) within fits
  refine ⟨sum, sumEq, ?_⟩
  rw [same, Decimal.value_zero, zero_add]
  exact exactSum_fill_neg one summed exact.value_eq

/-- Within bounds a transaction can be completed, which at most doubles the amounts of a commodity
and makes none of them finer. -/
theorem exists_completed_grossAt_le (few : transaction.elisions ≤ 1)
    (bounded : ∀ commodity, Decimal.gross (transaction.amountsOf commodity) < 2 ^ 96) :
    ∃ completed, transaction.completed = .ok completed ∧
      ∀ commodity scale, Decimal.largestScale (transaction.amountsOf commodity) ≤ scale →
        (∀ amount ∈ completed.amountsOf commodity, amount.scale ≤ scale) ∧
          Decimal.grossAt scale (completed.amountsOf commodity) ≤
            2 * Decimal.grossAt scale (transaction.amountsOf commodity) := by
  rcases Nat.le_one_iff_eq_zero_or_eq_one.mp few with none | one
  · refine ⟨transaction, completed_of_elisions_eq_zero none, fun commodity scale finer => ?_⟩
    refine ⟨fun amount member => (Decimal.scale_le_largestScale member).trans finer, ?_⟩
    omega
  · obtain ⟨totals, summed, exact⟩ := exists_totals_of_gross_lt bounded
    refine ⟨transaction.fill totals.neg, ?_, fun commodity scale finer => ?_⟩
    · rw [completed_of_elisions_eq_one one, summed]
    · exact grossAt_fill_neg_le one summed (exact commodity) finer

/-- A transaction with all its amounts is accepted if every running sum comes to zero. -/
theorem isBalanced_of_sums_zero
    (complete : ∀ posting ∈ transaction.postings, posting.isElided = false)
    (sums : ∀ commodity, ∃ sum,
      Decimal.sumFrom? .zero (transaction.amountsOf commodity) = some sum ∧ sum.value = 0) :
    transaction.isBalanced = true := by
  obtain ⟨totals, summed⟩ := exists_totals fun commodity => (sums commodity).imp fun _ => And.left
  have zero : totals.isZero = true := by
    refine totals.isZero_iff.mpr fun commodity => ?_
    obtain ⟨sum, sumEq, same⟩ := sums commodity
    have total := (sumFrom?_amountsOf summed commodity).symm.trans sumEq
    rw [Option.some.inj total, same]
  rw [isBalanced_of_complete complete, summed]
  simp [zero]

/-- Within bounds one elided posting is filled in so that every commodity cancels out exactly, and
the completed transaction is accepted. -/
theorem completed_of_gross_lt (one : transaction.elisions = 1)
    (bounded : ∀ commodity, Decimal.gross (transaction.amountsOf commodity) < 2 ^ 95) :
    ∃ completed, transaction.completed = .ok completed ∧
      (∀ commodity, completed.exactSum commodity = 0) ∧ completed.isBalanced = true := by
  obtain ⟨totals, summed, exact⟩ := exists_totals_of_gross_lt fun commodity =>
    (bounded commodity).trans (by decide)
  refine ⟨transaction.fill totals.neg, ?_, fun commodity => ?_, ?_⟩
  · rw [completed_of_elisions_eq_one one, summed]
  · exact exactSum_fill_neg one summed (exact commodity).value_eq
  · exact isBalanced_of_sums_zero (complete_fill transaction totals.neg) fun commodity =>
      sumFrom?_fill_neg one summed (bounded commodity) (exact commodity)

/-- What completing a transaction comes to, for every transaction. With two or more elided postings
it fails and counts them; with one it fails only if the totals are too large. Otherwise all stays as
it is but for the elided posting, which has what the others leave over, and completing again changes
nothing. Within bounds it does not fail, and the completed transaction balances exactly. -/
theorem completed_balances (transaction : Transaction) :
    (∀ header count, transaction.completed = .error (.ambiguousElision header count) ↔
      2 ≤ transaction.elisions ∧ header = transaction.header ∧ count = transaction.elisions) ∧
    (∀ overflow, transaction.completed = .error (.overflow overflow) ↔
      transaction.elisions = 1 ∧ transaction.totals = .error overflow) ∧
    ((∃ completed, transaction.completed = .ok completed) ↔ transaction.elisions = 0 ∨
      transaction.elisions = 1 ∧ ∃ totals, transaction.totals = .ok totals) ∧
    (transaction.elisions = 0 → transaction.completed = .ok transaction) ∧
    (∀ completed, transaction.completed = .ok completed →
      transaction.CompletedBy completed ∧ completed.completed = .ok completed) ∧
    ((∀ commodity, Decimal.gross (transaction.amountsOf commodity) < 2 ^ 95) →
      transaction.elisions ≤ 1 → ∃ completed, transaction.completed = .ok completed ∧
        (transaction.elisions = 1 →
          (∀ commodity, completed.exactSum commodity = 0) ∧ completed.isBalanced = true)) := by
  have settled : ∀ completed, transaction.completed = .ok completed →
      transaction.CompletedBy completed ∧ completed.completed = .ok completed :=
    fun completed done => ⟨completedBy_of_completed done, completed_completed done⟩
  rcases Nat.lt_trichotomy transaction.elisions 1 with none | one | many
  · have none : transaction.elisions = 0 := by omega
    have same := completed_of_elisions_eq_zero none
    refine ⟨?_, ?_, ?_, fun _ => same, settled, fun _ _ => ⟨transaction, same, fun one => ?_⟩⟩
    · simp [same, none]
    · simp [same, none]
    · simp [same, none]
    · omega
  · have sum := completed_of_elisions_eq_one one
    refine ⟨?_, ?_, ?_, fun none => ?_, settled, fun bounded _ => ?_⟩
    · cases summed : transaction.totals <;> simp [sum, summed, one]
    · cases summed : transaction.totals <;> simp [sum, summed, one]
    · cases summed : transaction.totals <;> simp [sum, summed, one]
    · omega
    · obtain ⟨completed, done, balanced⟩ := completed_of_gross_lt one bounded
      exact ⟨completed, done, fun _ => balanced⟩
  · have failed := completed_of_two_le_elisions many
    refine ⟨fun header count => ?_, fun overflow => ?_, ?_, fun none => ?_, settled,
      fun _ few => ?_⟩
    · simp only [failed, Except.error.injEq, BalanceError.ambiguousElision.injEq]
      constructor
      · rintro ⟨rfl, rfl⟩
        exact ⟨many, rfl, rfl⟩
      · rintro ⟨_, rfl, rfl⟩
        exact ⟨rfl, rfl⟩
    · simp [failed]
      omega
    · simp [failed]
      omega
    · omega
    · omega

/-- A sale of shares that have been bought on the same day, with fees: the elided posting stands
between the others, the shares cancel out, and the dollars have different numbers of digits. -/
def dayTrade : Transaction :=
  let dollars (amount : String) : Option Balance := some (.single ⟨"$", true⟩ (.spelled amount))
  let shares (amount : String) : Option Balance :=
    some (.single ⟨" SHARES", false⟩ (.spelled amount))
  { date := default
    description := "Broker"
    postings := [⟨["Asset", "Shares"], shares "3"⟩, ⟨["Income"], dollars "-123.4"⟩,
      ⟨["Asset", "Cash"], none⟩, ⟨["Asset", "Shares"], shares "-3"⟩,
      ⟨["Expense"], dollars "4.567"⟩] }

theorem completed_dayTrade :
    dayTrade.elisions = 1 ∧
    (∀ commodity, Decimal.gross (dayTrade.amountsOf commodity) < 2 ^ 95) ∧
    ∃ completed, dayTrade.completed = .ok completed ∧ dayTrade.CompletedBy completed ∧
      completed.completed = .ok completed ∧ (∀ commodity, completed.exactSum commodity = 0) ∧
      completed.isBalanced = true := by
  have one : dayTrade.elisions = 1 := by decide
  have written : ∀ commodity ∈ dayTrade.commodities,
      Decimal.gross (dayTrade.amountsOf commodity) < 2 ^ 95 := by decide
  have bounded : ∀ commodity, Decimal.gross (dayTrade.amountsOf commodity) < 2 ^ 95 := by
    intro commodity
    by_cases mentioned : commodity ∈ dayTrade.commodities
    · exact written commodity mentioned
    · have absent : dayTrade.amountsOf commodity = [] := by
        by_contra some
        exact mentioned (amountsOf_ne_nil_iff.mp some)
      rw [absent]
      decide
  obtain ⟨_, _, _, _, settled, within⟩ := completed_balances dayTrade
  obtain ⟨completed, done, balanced⟩ := within bounded one.le
  obtain ⟨same, again⟩ := settled completed done
  exact ⟨one, bounded, completed, done, same, again, balanced one⟩

end DoubleEntry.Transaction

import DoubleEntry.Proofs.Query.Selection

/-! Queries as boolean formulas about single postings. A query selects the postings of which it
holds, whatever their amounts, so that the laws of the connectives are equations between selections.
-/

namespace DoubleEntry

/-- The transaction with other amounts, which may also be left out. -/
def Transaction.withAmounts (transaction : Transaction) (amounts : Nat → Option Balance) :
    Transaction :=
  { transaction with
    postings := transaction.postings.mapIdx fun index posting =>
      { posting with amounts := amounts index } }

theorem Transaction.accounts_withAmounts (transaction : Transaction)
    (amounts : Nat → Option Balance) :
    (transaction.withAmounts amounts).postings.map Posting.account =
      transaction.postings.map Posting.account := by
  refine List.ext_getElem? fun index => ?_
  simp only [withAmounts, List.getElem?_map, List.getElem?_mapIdx, Option.map_map]
  rfl

namespace Query

variable [PatternEngine]

/-- What a query says of the posting with a number. -/
def Holds (transaction : Transaction) (index : Nat) : Query → Prop
  | account matcher => ∃ posting, transaction.postings[index]? = some posting ∧
      matcher.isMatch (":".intercalate posting.account) = true
  | payee matcher => matcher.isMatch transaction.description = true
  | both children => ∀ child ∈ children, child.Holds transaction index
  | either children => ∃ child, ∃ _ : child ∈ children, child.Holds transaction index
  | not child => ¬ child.Holds transaction index
  | all => True

variable {transaction : Transaction} {index : Nat} {children : List Query} {first second : Query}

theorem allHoldAt_iff : allHoldAt transaction index children = true ↔
    ∀ child ∈ children, child.holdsAt transaction index = true := by
  induction children with
  | nil => simp [allHoldAt]
  | cons child children ih => simp [allHoldAt, ih]

theorem anyHoldsAt_iff : anyHoldsAt transaction index children = true ↔
    ∃ child ∈ children, child.holdsAt transaction index = true := by
  induction children with
  | nil => simp [anyHoldsAt]
  | cons child children ih => simp [anyHoldsAt, ih]

/-- Whether a query holds is decided along the tree. -/
theorem holdsAt_iff (transaction : Transaction) (index : Nat) (query : Query) :
    query.holdsAt transaction index = true ↔ query.Holds transaction index := by
  cases query with
  | account matcher => simp [holdsAt, Holds, Option.any_eq_true, Posting.accountName]
  | payee matcher => simp [holdsAt, Holds]
  | both children =>
    rw [holdsAt, Holds, allHoldAt_iff]
    exact forall₂_congr fun child _ => holdsAt_iff transaction index child
  | either children =>
    rw [holdsAt, Holds, anyHoldsAt_iff]
    simp only [exists_prop]
    exact exists_congr fun child => and_congr_right fun _ => holdsAt_iff transaction index child
  | not child =>
    rw [holdsAt, Holds, ← holdsAt_iff transaction index child]
    simp
  | all => simp [holdsAt, Holds]

instance (transaction : Transaction) (index : Nat) (query : Query) :
    Decidable (query.Holds transaction index) :=
  decidable_of_iff _ (holdsAt_iff transaction index query)

theorem decide_holds (query : Query) (transaction : Transaction) (index : Nat) :
    decide (query.Holds transaction index) = query.holdsAt transaction index := by
  rw [Bool.eq_iff_iff, decide_eq_true_iff, holdsAt_iff]

/-- Formulas that hold of the same postings select the same. -/
theorem execute_eq_of_holds_iff
    (same : ∀ index, first.Holds transaction index ↔ second.Holds transaction index) :
    first.execute transaction = second.execute transaction := by
  rw [execute_eq_filter, execute_eq_filter]
  refine List.filter_congr fun index _ => ?_
  rw [Bool.eq_iff_iff, holdsAt_iff, holdsAt_iff]
  exact same index

theorem holds_not_both_iff : (not (both children)).Holds transaction index ↔
    (either (children.map not)).Holds transaction index := by
  simp [Holds]

theorem holds_not_either_iff : (not (either children)).Holds transaction index ↔
    (both (children.map not)).Holds transaction index := by
  simp [Holds]

theorem selects_iff {query : Query} : query.selects transaction = true ↔
    ∃ index < transaction.postings.length, query.Holds transaction index := by
  rw [selects, execute_eq_filter, indices]
  simp only [Bool.not_eq_true', List.isEmpty_eq_false_iff_exists_mem, List.mem_filter,
    List.mem_range, holdsAt_iff]

/-- A query selects exactly the postings of which it holds, in their order, and it selects a
transaction if there is one. Amounts play no part in it. So a double negation changes nothing, and
the negation of a conjunction or a disjunction goes over to its members, however many there are. -/
theorem execute_pointwise (transaction : Transaction) :
    (∀ query : Query,
      query.execute transaction = (List.range transaction.postings.length).filter
        (fun index => query.Holds transaction index) ∧
      query.postings transaction = (transaction.postings.zipIdx.filter
        (fun posting => query.Holds transaction posting.2)).map (·.1) ∧
      (query.selects transaction = true ↔
        ∃ index < transaction.postings.length, query.Holds transaction index) ∧
      ∀ amounts, query.execute (transaction.withAmounts amounts) = query.execute transaction) ∧
    (∀ query : Query, (not (not query)).execute transaction = query.execute transaction) ∧
    ∀ children : List Query,
      (not (both children)).execute transaction =
        (either (children.map not)).execute transaction ∧
      (not (either children)).execute transaction =
        (both (children.map not)).execute transaction := by
  refine ⟨fun query => ⟨?_, ?_, selects_iff, fun amounts => ?_⟩, fun query => ?_,
    fun children => ⟨?_, ?_⟩⟩
  · simp only [decide_holds]
    exact execute_eq_filter transaction query
  · simp only [decide_holds]
    exact postings_eq_filter query transaction
  · refine execute_congr ?_ (transaction.accounts_withAmounts amounts) query
    rfl
  · refine execute_eq_of_holds_iff fun index => ?_
    rw [Holds, Holds, not_not]
  · exact execute_eq_of_holds_iff fun _ => holds_not_both_iff
  · exact execute_eq_of_holds_iff fun _ => holds_not_either_iff

end Query

end DoubleEntry

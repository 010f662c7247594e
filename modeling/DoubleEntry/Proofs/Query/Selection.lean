import DoubleEntry.Query.Basic
import Mathlib.Data.List.Basic
import Mathlib.Data.List.Induction

/-! What a query selects, posting by posting. It is decided by the description and the account of
the posting alone, so that amounts play no part in it. -/

namespace DoubleEntry.Query

theorem contains_filter_of_mem {members : List Nat} (holds : Nat → Bool) {index : Nat}
    (member : index ∈ members) : (members.filter holds).contains index = holds index := by
  rw [Bool.eq_iff_iff, List.contains_iff_mem, List.mem_filter]
  exact and_iff_right member

theorem restrict_filter (members : List Nat) (first second : Nat → Bool) :
    restrict (members.filter first) (members.filter second) =
      members.filter fun index => first index && second index := by
  rw [restrict, List.filter_filter]
  refine List.filter_congr fun index member => ?_
  rw [contains_filter_of_mem second member, Bool.and_comm]

/-- The elements at chosen places, found by their numbers or by going through all of them. -/
theorem filterMap_range_filter {α : Type} (items : List α) (chosen : Nat → Bool) :
    ((List.range items.length).filter chosen).filterMap (items[·]?) =
      (items.zipIdx.filter fun item => chosen item.2).map (·.1) := by
  induction items using List.reverseRecOn with
  | nil => rfl
  | append_singleton items last ih =>
    have before : ((List.range items.length).filter chosen).filterMap ((items ++ [last])[·]?) =
        ((List.range items.length).filter chosen).filterMap (items[·]?) := by
      refine List.filterMap_congr fun index member => ?_
      rw [List.getElem?_append_left (List.mem_range.mp (List.mem_filter.mp member).1)]
    rw [List.length_append, List.length_singleton, List.range_succ, List.filter_append,
      List.filterMap_append, before, ih, List.zipIdx_append, List.filter_append, List.map_append]
    cases keep : chosen items.length
    · simp [keep]
    · simp [keep]

variable [PatternEngine]

mutual

/-- Whether a query holds of the posting with a number. -/
def holdsAt (transaction : Transaction) (index : Nat) : Query → Bool
  | account matcher =>
    transaction.postings[index]?.any fun posting => matcher.isMatch posting.accountName
  | payee matcher => matcher.isMatch transaction.description
  | both children => allHoldAt transaction index children
  | either children => anyHoldsAt transaction index children
  | not child => !holdsAt transaction index child
  | all => true

/-- Whether every one of some queries holds of the posting with a number. -/
def allHoldAt (transaction : Transaction) (index : Nat) : List Query → Bool
  | [] => true
  | child :: children => holdsAt transaction index child && allHoldAt transaction index children

/-- Whether at least one of some queries holds of the posting with a number. -/
def anyHoldsAt (transaction : Transaction) (index : Nat) : List Query → Bool
  | [] => false
  | child :: children => holdsAt transaction index child || anyHoldsAt transaction index children

end

variable {transaction : Transaction}

mutual

/-- A query selects the postings of which it holds, in their order. -/
theorem execute_eq_filter (transaction : Transaction) : (query : Query) →
    query.execute transaction =
      (indices transaction).filter fun index => query.holdsAt transaction index
  | account matcher => by simp only [execute, holdsAt]
  | payee matcher => by
    cases found : matcher.isMatch transaction.description <;> simp [execute, holdsAt, found]
  | both children => by
    simp only [execute, holdsAt]
    exact executeAll_eq_filter transaction children
  | either children => by
    simp only [execute, holdsAt]
    exact executeAny_eq_filter transaction children
  | not child => by
    simp only [execute, holdsAt, execute_eq_filter transaction child]
    refine List.filter_congr fun index member => ?_
    rw [contains_filter_of_mem _ member]
  | all => by simp [execute, holdsAt]

theorem executeAll_eq_filter (transaction : Transaction) : (children : List Query) →
    executeAll transaction children =
      (indices transaction).filter fun index => allHoldAt transaction index children
  | [] => by simp [executeAll, allHoldAt]
  | child :: children => by
    rw [executeAll, execute_eq_filter transaction child,
      executeAll_eq_filter transaction children, restrict_filter]
    simp only [allHoldAt]

theorem executeAny_eq_filter (transaction : Transaction) : (children : List Query) →
    executeAny transaction children =
      (indices transaction).filter fun index => anyHoldsAt transaction index children
  | [] => by simp [executeAny, anyHoldsAt]
  | child :: children => by
    simp only [executeAny, anyHoldsAt, execute_eq_filter transaction child,
      executeAny_eq_filter transaction children]
    refine List.filter_congr fun index member => ?_
    rw [contains_filter_of_mem _ member, contains_filter_of_mem _ member]

end

variable {first second : Transaction}

mutual

/-- Transactions with one description and the same accounts are alike to every query. -/
theorem holdsAt_congr (sameDescription : first.description = second.description)
    (sameAccounts : first.postings.map Posting.account = second.postings.map Posting.account)
    (index : Nat) : (query : Query) → query.holdsAt first index = query.holdsAt second index
  | account matcher => by
    have sameAccount := congrArg (·[index]?) sameAccounts
    simp only [List.getElem?_map] at sameAccount
    simp only [holdsAt, Posting.accountName]
    cases left : first.postings[index]? <;> cases right : second.postings[index]? <;>
      simp_all
  | payee matcher => by simp only [holdsAt, sameDescription]
  | both children => by
    simp only [holdsAt]
    exact allHoldAt_congr sameDescription sameAccounts index children
  | either children => by
    simp only [holdsAt]
    exact anyHoldsAt_congr sameDescription sameAccounts index children
  | not child => by simp only [holdsAt, holdsAt_congr sameDescription sameAccounts index child]
  | all => rfl

theorem allHoldAt_congr (sameDescription : first.description = second.description)
    (sameAccounts : first.postings.map Posting.account = second.postings.map Posting.account)
    (index : Nat) : (children : List Query) →
      allHoldAt first index children = allHoldAt second index children
  | [] => rfl
  | child :: children => by
    rw [allHoldAt, allHoldAt, holdsAt_congr sameDescription sameAccounts index child,
      allHoldAt_congr sameDescription sameAccounts index children]

theorem anyHoldsAt_congr (sameDescription : first.description = second.description)
    (sameAccounts : first.postings.map Posting.account = second.postings.map Posting.account)
    (index : Nat) : (children : List Query) →
      anyHoldsAt first index children = anyHoldsAt second index children
  | [] => rfl
  | child :: children => by
    rw [anyHoldsAt, anyHoldsAt, holdsAt_congr sameDescription sameAccounts index child,
      anyHoldsAt_congr sameDescription sameAccounts index children]

end

theorem execute_congr (sameDescription : first.description = second.description)
    (sameAccounts : first.postings.map Posting.account = second.postings.map Posting.account)
    (query : Query) : query.execute first = query.execute second := by
  have sameLength : first.postings.length = second.postings.length := by
    simpa using congrArg List.length sameAccounts
  rw [execute_eq_filter, execute_eq_filter, indices, indices, sameLength]
  refine List.filter_congr fun index _ => ?_
  exact holdsAt_congr sameDescription sameAccounts index query

/-- The postings that a query selects are those with a number that it selects, in order. -/
theorem postingsAt_execute (query : Query) (transaction shown : Transaction)
    (sameLength : shown.postings.length = transaction.postings.length) :
    postingsAt shown (query.execute transaction) =
      (shown.postings.zipIdx.filter fun posting =>
        (query.execute transaction).contains posting.2).map (·.1) := by
  have selected : query.execute transaction = (List.range shown.postings.length).filter
      fun index => (query.execute transaction).contains index := by
    rw [execute_eq_filter, indices, sameLength]
    refine List.filter_congr fun index member => ?_
    rw [contains_filter_of_mem _ member]
  rw [← filterMap_range_filter, ← selected, postingsAt]

theorem postings_eq_filter (query : Query) (transaction : Transaction) :
    query.postings transaction =
      (transaction.postings.zipIdx.filter fun posting => query.holdsAt transaction posting.2).map
        (·.1) := by
  rw [postings, postingsAt, execute_eq_filter, indices, filterMap_range_filter]

theorem postings_sublist (query : Query) (transaction : Transaction) :
    (query.postings transaction).Sublist transaction.postings := by
  rw [postings_eq_filter]
  have part := transaction.postings.zipIdx.filter_sublist
    (p := fun posting => query.holdsAt transaction posting.2)
  simpa using part.map Prod.fst

theorem postings_all (transaction : Transaction) :
    all.postings transaction = transaction.postings := by
  rw [postings_eq_filter]
  simp [holdsAt]

end DoubleEntry.Query

import DoubleEntry.Proofs.Journal.StableOrder
import DoubleEntry.Proofs.Ledger.Loading
import DoubleEntry.Proofs.SortedMap

/-! The indexes of a journal. Whatever is added to a journal, directly or from files, and however often
it is sorted in between, it holds the directives that have arrived with the transactions in some
order, and its accounts and commodities are those of its transactions. -/

namespace DoubleEntry.Journal

/-- A call that adds to a journal or sorts it; a file is read as it is at the time. -/
inductive Change where
  | transaction (transaction : Transaction)
  | directive (directive : Directive)
  | directives (directives : List Located)
  | file (files : FileSystem) (path : String)
  | sort (terms : List SortTerm)

namespace Change

/-- The journal after a change. Reading a file may fail, which leaves the journal as it is. -/
def make (journal : Journal) : Change → Journal
  | .transaction added => journal.addTransaction added
  | .directive added => journal.addDirective added
  | .directives added => journal.addAll added
  | .file files path =>
    match journal.addFile files path with
    | .ok (journal, _) => journal
    | .error _ => journal
  | .sort terms => journal.sort terms

/-- The directives that arrive with a change, in order. -/
def arrivals : Change → List Directive
  | .transaction added => [.transaction added]
  | .directive added => [added]
  | .directives added => added.map (·.directive)
  | .file files path =>
    match parseFile files path with
    | .ok added => added.map (·.directive)
    | .error _ => []
  | .sort _ => []

end Change

def afterChanges (changes : List Change) : Journal := changes.foldl Change.make {}

/-- The journal of some directives, with its transactions in another order. -/
def reordered (arrived : List Directive) (transactions : List Transaction) : Journal :=
  { ofDirectives arrived with transactions }

variable {arrived : List Directive} {transactions : List Transaction} {changes : List Change}

theorem addDirective_reordered (arrived : List Directive) (transactions : List Transaction)
    (directive : Directive) :
    (reordered arrived transactions).addDirective directive =
      reordered (arrived ++ [directive]) (transactions ++ directive.transaction?.toList) := by
  rw [reordered, reordered, ← addDirective_ofDirectives]
  cases directive <;> simp [addDirective, addTransaction, Directive.transaction?]

theorem addAll_reordered (arrived : List Directive) (transactions : List Transaction)
    (directives : List Located) :
    (reordered arrived transactions).addAll directives =
      reordered (arrived ++ directives.map (·.directive))
        (transactions ++ (directives.map (·.directive)).filterMap Directive.transaction?) := by
  induction directives generalizing arrived transactions with
  | nil => simp [addAll]
  | cons located directives ih =>
    have step : (reordered arrived transactions).addAll (located :: directives) =
        ((reordered arrived transactions).addDirective located.directive).addAll directives := rfl
    rw [step, addDirective_reordered, ih, List.map_cons, List.filterMap_cons]
    cases located.directive.transaction? <;> simp

theorem addFile_eq (journal : Journal) (files : FileSystem) (path : String) :
    journal.addFile files path = (parseFile files path).map fun directives =>
      (journal.addAll directives, directives.length) := by
  rw [addFile]
  cases parseFile files path <;> rfl

/-- A change that does not sort adds its transactions at the end. -/
theorem make_reordered {change : Change} (unsorted : ∀ terms, change ≠ .sort terms)
    (arrived : List Directive) (transactions : List Transaction) :
    change.make (reordered arrived transactions) = reordered (arrived ++ change.arrivals)
      (transactions ++ change.arrivals.filterMap Directive.transaction?) := by
  cases change with
  | transaction added => exact addDirective_reordered arrived transactions (.transaction added)
  | directive added =>
    have one : [added].filterMap Directive.transaction? = added.transaction?.toList := by
      cases added <;> rfl
    rw [Change.make, Change.arrivals, addDirective_reordered, one]
  | directives added => exact addAll_reordered arrived transactions added
  | file files path =>
    rw [Change.make, addFile_eq, Change.arrivals]
    cases parseFile files path with
    | error error => simp [Except.map]
    | ok added => exact addAll_reordered arrived transactions added
  | sort terms => exact absurd rfl (unsorted terms)

/-- After any changes a journal holds what has arrived, with the transactions in some order, which is
that of their arrival as long as it is not sorted. -/
theorem foldl_make_reordered (changes : List Change) (arrived : List Directive)
    (transactions : List Transaction)
    (same : transactions.Perm (arrived.filterMap Directive.transaction?)) :
    ∃ later, changes.foldl Change.make (reordered arrived transactions) =
        reordered (arrived ++ changes.flatMap Change.arrivals) later ∧
      later.Perm ((arrived ++ changes.flatMap Change.arrivals).filterMap Directive.transaction?) ∧
      ((∀ terms, .sort terms ∉ changes) → later = transactions ++
        (changes.flatMap Change.arrivals).filterMap Directive.transaction?) := by
  induction changes generalizing arrived transactions with
  | nil => exact ⟨transactions, by simp, by simpa using same, by simp⟩
  | cons change changes ih =>
    rw [List.foldl_cons, List.flatMap_cons, ← List.append_assoc]
    by_cases sorting : ∃ terms, change = .sort terms
    · obtain ⟨terms, rfl⟩ := sorting
      have sorted := (sortTransactions_perm terms transactions).trans same
      obtain ⟨later, run, permuted, _⟩ := ih _ _ sorted
      rw [Change.arrivals, List.append_nil]
      exact ⟨later, run, permuted, fun unsorted => absurd (List.mem_cons_self ..) (unsorted terms)⟩
    · have unsorted (terms : List SortTerm) : change ≠ .sort terms :=
        fun equal => sorting ⟨terms, equal⟩
      have permuted := same.append_right (change.arrivals.filterMap Directive.transaction?)
      rw [← List.filterMap_append] at permuted
      obtain ⟨later, run, permuted', inOrder⟩ := ih _ _ permuted
      rw [make_reordered unsorted]
      refine ⟨later, run, permuted', fun none => ?_⟩
      rw [inOrder fun terms member => none terms (List.mem_cons_of_mem _ member),
        List.filterMap_append, List.append_assoc]

/-! What the indexes of such a journal hold. -/

theorem mem_commoditiesOf {posting : Posting} {commodity : Commodity} :
    commodity ∈ commoditiesOf posting ↔
      ∃ amounts, posting.amounts = some amounts ∧ commodity ∈ amounts.keys := by
  rw [commoditiesOf]
  cases posting.amounts <;> simp

theorem mem_accounts_reordered
    (same : transactions.Perm (arrived.filterMap Directive.transaction?)) (account : List String) :
    account ∈ (reordered arrived transactions).accounts.keys ↔
      ∃ transaction ∈ transactions, ∃ posting ∈ transaction.postings, posting.account = account := by
  simp only [reordered, ofDirectives, SortedMap.mem_keys_insertAll, List.mem_flatMap, List.mem_map,
    same.mem_iff]
  exact or_iff_right (List.not_mem_nil)

theorem mem_commodities_reordered
    (same : transactions.Perm (arrived.filterMap Directive.transaction?)) (commodity : Commodity) :
    commodity ∈ (reordered arrived transactions).commodities.keys ↔
      ∃ transaction ∈ transactions, ∃ posting ∈ transaction.postings, ∃ amounts,
        posting.amounts = some amounts ∧ commodity ∈ amounts.keys := by
  simp only [reordered, ofDirectives, SortedMap.mem_keys_insertAll, List.mem_flatMap,
    mem_commoditiesOf, same.mem_iff]
  exact or_iff_right (List.not_mem_nil)

/-- The contents of a journal always match its indexes. After any changes to a new journal, from
files as they are at the time and with failures and sorting in between, the accounts are those of the
postings of its transactions, and the commodities those of their amounts; prices and ignored symbols
are those that have arrived, in order, and the default commodity is the last one that has; the
transactions are those that have arrived, in some order, and in that of their arrival if they have
not been sorted. A file that cannot be read changes nothing. -/
theorem indexes_match_contents (changes : List Change) :
    let journal := afterChanges changes
    let arrived := changes.flatMap Change.arrivals
    (∀ account, account ∈ journal.accounts.keys ↔ ∃ transaction ∈ journal.transactions,
      ∃ posting ∈ transaction.postings, posting.account = account) ∧
    (∀ commodity, commodity ∈ journal.commodities.keys ↔ ∃ transaction ∈ journal.transactions,
      ∃ posting ∈ transaction.postings, ∃ amounts,
        posting.amounts = some amounts ∧ commodity ∈ amounts.keys) ∧
    journal.prices = arrived.filterMap Directive.price? ∧
    journal.ignoredSymbols = arrived.filterMap Directive.ignoredSymbol? ∧
    journal.defaultCommodity = (arrived.filterMap Directive.defaultCommodity?).getLast? ∧
    journal.transactions.Perm (arrived.filterMap Directive.transaction?) ∧
    ((∀ terms, .sort terms ∉ changes) →
      journal.transactions = arrived.filterMap Directive.transaction?) ∧
    ∀ files path error, journal.addFile files path = .error error →
      afterChanges (changes ++ [.file files path]) = journal := by
  intro journal arrived
  obtain ⟨transactions, run, same, inOrder⟩ :=
    foldl_make_reordered changes [] [] .nil
  have whole : journal = reordered arrived transactions := run
  rw [whole]
  refine ⟨mem_accounts_reordered same, mem_commodities_reordered same, rfl, rfl, rfl, same, inOrder,
    fun files path error failed => ?_⟩
  rw [afterChanges, List.foldl_append, ← afterChanges]
  change Change.make journal (.file files path) = _
  rw [whole, Change.make, failed]

/-- A file with a transaction, another transaction, and a file that cannot be read. -/
def rentAndTea : List Change :=
  [.file .complete "home",
    .transaction ⟨default, "Tea", [⟨["Tea"], some (.single ⟨" AU", false⟩ (.spelled "1"))⟩,
      ⟨["Cash"], none⟩]⟩,
    .file .headless "shop"]

theorem indexes_match_contents_rentAndTea :
    (∀ terms, .sort terms ∉ rentAndTea) ∧
    (afterChanges rentAndTea).addFile .headless "shop" =
      .error ⟨.unexpectedPosting, some ⟨"shop", 1⟩⟩ ∧
    (afterChanges rentAndTea).transactions.map Transaction.description = ["Rent", "Tea"] ∧
    afterChanges (rentAndTea ++ [.file .headless "shop"]) = afterChanges rentAndTea ∧
    ["Cash"] ∈ (afterChanges rentAndTea).accounts.keys := by
  have unsorted (terms : List SortTerm) : .sort terms ∉ rentAndTea := by simp [rentAndTea]
  obtain ⟨added, parsed, rent⟩ : ∃ added, parseFile .complete "home" = .ok added ∧
      ((added.map (·.directive)).filterMap Directive.transaction?).map Transaction.description =
        ["Rent"] := by
    refine exists_of_map_eq_ok ?_
    rw [parseFile_eq_gather]
    decide +kernel
  have unread : parseFile .headless "shop" = .error ⟨.unexpectedPosting, some ⟨"shop", 1⟩⟩ := by
    rw [parseFile_eq_gather]
    decide +kernel
  have failed : (afterChanges rentAndTea).addFile .headless "shop" =
      .error ⟨.unexpectedPosting, some ⟨"shop", 1⟩⟩ := by
    rw [addFile_eq, unread]
    rfl
  obtain ⟨accounts, _, _, _, _, _, inOrder, unchanged⟩ := indexes_match_contents rentAndTea
  have transactions := inOrder unsorted
  simp only [rentAndTea, List.flatMap_cons, List.flatMap_nil, Change.arrivals, parsed, unread,
    List.append_nil, List.filterMap_append] at transactions
  refine ⟨unsorted, failed, ?_, unchanged _ _ _ failed, (accounts _).mpr ?_⟩
  · rw [rentAndTea, transactions, List.map_append, rent]
    rfl
  · rw [rentAndTea, transactions]
    exact ⟨_, List.mem_append_right _ (List.mem_cons_self ..), _,
      List.mem_cons_of_mem _ (List.mem_cons_self ..), rfl⟩

end DoubleEntry.Journal

import DoubleEntry.Proofs.AccountTree.Posting
import DoubleEntry.Proofs.Balance.Posting

/-! Account trees of whole runs of postings. The rollup of an account is what its postings and those
of all accounts below it add up to, in their order. Within bounds it is its own balance and the
rollups directly below it, to the last digit. -/

namespace DoubleEntry

/-- An amount of a commodity for an account. -/
structure Booking where
  account : List String
  commodity : Commodity
  amount : Decimal
  deriving DecidableEq

namespace Booking

def entry (booking : Booking) : Commodity × Decimal := (booking.commodity, booking.amount)

/-- What is booked to a path or below it, in order. -/
def entriesBelow (bookings : List Booking) (path : List String) : List (Commodity × Decimal) :=
  (bookings.filter fun booking => path <+: booking.account).map entry

/-- What is booked to a path itself, in order. -/
def entriesAt (bookings : List Booking) (path : List String) : List (Commodity × Decimal) :=
  (bookings.filter fun booking => booking.account = path).map entry

/-- The value that a booking adds to the sum of a commodity. -/
def valueIn (commodity : Commodity) (booking : Booking) : Rat :=
  if booking.commodity = commodity then booking.amount.value else 0

/-- Of every commodity, the amounts together without their signs stay within 96 bits. -/
def Bounded (bookings : List Booking) : Prop :=
  ∀ commodity, Decimal.gross (Balance.amountsIn (bookings.map entry) commodity) < 2 ^ 96

/-- Commodities to which nothing is booked are within any bounds. -/
theorem bounded_of_mentioned {bookings : List Booking}
    (mentioned : ∀ commodity ∈ bookings.map Booking.commodity,
      Decimal.gross (Balance.amountsIn (bookings.map entry) commodity) < 2 ^ 96) :
    Bounded bookings := by
  intro commodity
  by_cases member : commodity ∈ bookings.map Booking.commodity
  · exact mentioned commodity member
  · have none : Balance.amountsIn (bookings.map entry) commodity = [] := by
      refine List.filterMap_eq_nil_iff.mpr fun booked present => if_neg ?_
      rintro rfl
      obtain ⟨booking, inside, rfl⟩ := List.mem_map.mp present
      exact member (List.mem_map.mpr ⟨booking, inside, rfl⟩)
    rw [none]
    decide

variable {bookings others : List Booking} {booking : Booking} {path : List String}

theorem entriesBelow_concat (within : path <+: booking.account) :
    entriesBelow (bookings ++ [booking]) path = entriesBelow bookings path ++ [booking.entry] := by
  simp [entriesBelow, within]

theorem entriesAt_concat (bookings : List Booking) (booking : Booking) :
    entriesAt (bookings ++ [booking]) booking.account =
      entriesAt bookings booking.account ++ [booking.entry] := by
  simp [entriesAt]

theorem Bounded.sublist (bounded : Bounded others) (part : bookings.Sublist others) :
    Bounded bookings := fun commodity =>
  (Decimal.gross_le_of_sublist ((part.map entry).filterMap _)).trans_lt (bounded commodity)

theorem Bounded.entriesBelow (bounded : Bounded bookings) (path : List String)
    (commodity : Commodity) :
    Decimal.gross (Balance.amountsIn (entriesBelow bookings path) commodity) < 2 ^ 96 :=
  bounded.sublist List.filter_sublist commodity

theorem Bounded.entriesAt (bounded : Bounded bookings) (path : List String)
    (commodity : Commodity) :
    Decimal.gross (Balance.amountsIn (entriesAt bookings path) commodity) < 2 ^ 96 :=
  bounded.sublist List.filter_sublist commodity

end Booking

namespace Account

/-- Posts bookings in turn, up to the first sum that is too large. -/
def book (account : Account) (bookings : List Booking) : Progress Account Overflow :=
  Progress.foldl (fun account booking =>
    account.post booking.commodity booking.amount booking.account) account bookings

/-- An account tree that has nothing but some bookings in it. -/
structure Represents (tree : Account) (bookings : List Booking) : Prop where
  ordered : tree.below.Ordered
  present : ∀ path, (tree.find? path).isSome ↔
    path = [] ∨ ∃ booking ∈ bookings, path <+: booking.account
  rollup : ∀ path, Balance.postAll ∅ (Booking.entriesBelow bookings path) =
    ⟨(tree.accountAt path).rollup, none⟩
  own : ∀ path, Balance.postAll ∅ (Booking.entriesAt bookings path) =
    ⟨(tree.accountAt path).own, none⟩

end Account

theorem Balance.postAll_concat {start before after : Balance}
    {entries : List (Commodity × Decimal)} {commodity : Commodity} {amount : Decimal}
    (run : start.postAll entries = ⟨before, none⟩)
    (last : before.post commodity amount = ⟨after, none⟩) :
    start.postAll (entries ++ [(commodity, amount)]) = ⟨after, none⟩ := by
  rw [postAll] at run
  rw [postAll, Progress.foldl_append, run, Progress.andThen_ok, Progress.foldl, last]
  rfl

namespace Account

variable {tree : Account} {bookings : List Booking} {booking : Booking} {path : List String}

theorem represents_empty : Represents {} [] where
  ordered := trivial
  present path := by
    cases path with
    | nil => simp
    | cons name path => simp [find?_cons, Forest.find?]
  rollup path := by
    cases path with
    | nil => simp [Booking.entriesBelow, Balance.postAll]
    | cons name path =>
      simp [Booking.entriesBelow, Balance.postAll, accountAt, find?_cons, Forest.find?]
  own path := by
    cases path with
    | nil => simp [Booking.entriesAt, Balance.postAll]
    | cons name path =>
      simp [Booking.entriesAt, Balance.postAll, accountAt, find?_cons, Forest.find?]

theorem Represents.post (represents : tree.Represents bookings)
    (done : (tree.post booking.commodity booking.amount booking.account).fault = none) :
    (tree.post booking.commodity booking.amount booking.account).state.Represents
      (bookings ++ [booking]) where
  ordered := ordered_post represents.ordered
  present path := by
    by_cases onPath : path <+: booking.account
    · obtain ⟨after, found, _⟩ := find?_post_onPath represents.ordered done onPath
      rw [found]
      refine iff_of_true rfl (.inr ⟨booking, ?_, onPath⟩)
      simp
    · rw [find?_post_aside represents.ordered done onPath, represents.present]
      simp [onPath]
  rollup path := by
    have before := represents.rollup path
    by_cases onPath : path <+: booking.account
    · obtain ⟨after, found, rollupEq, _⟩ := find?_post_onPath represents.ordered done onPath
      rw [Booking.entriesBelow_concat onPath, accountAt, found]
      exact Balance.postAll_concat before rollupEq
    · have same := find?_post_aside represents.ordered done onPath
      rw [accountAt, same, ← accountAt, ← before]
      simp [Booking.entriesBelow, onPath]
  own path := by
    have before := represents.own path
    by_cases here : booking.account = path
    · subst here
      obtain ⟨after, found, _, ownEq, _⟩ :=
        find?_post_onPath represents.ordered done (List.prefix_refl _)
      rw [Booking.entriesAt_concat, accountAt, found]
      exact Balance.postAll_concat before (ownEq rfl)
    · have unchanged : ((tree.post booking.commodity booking.amount
          booking.account).state.accountAt path).own = (tree.accountAt path).own := by
        by_cases onPath : path <+: booking.account
        · obtain ⟨after, found, _, _, ownSame⟩ :=
            find?_post_onPath represents.ordered done onPath
          rw [accountAt, found]
          exact ownSame (Ne.symm here)
        · rw [accountAt, find?_post_aside represents.ordered done onPath, ← accountAt]
      rw [unchanged, ← before]
      simp [Booking.entriesAt, here]

/-- A run of bookings that does not stop leaves a tree of exactly these bookings. -/
theorem Represents.book {more : List Booking} (represents : tree.Represents bookings)
    (done : (tree.book more).fault = none) :
    (tree.book more).state.Represents (bookings ++ more) := by
  induction more generalizing tree bookings with
  | nil => simpa [Account.book] using represents
  | cons booking more ih =>
    obtain ⟨first, rest⟩ := Progress.fault_foldl_cons_eq_none_iff.mp done
    have later := ih (represents.post first) rest
    rw [List.append_assoc, List.singleton_append] at later
    rw [Account.book, Progress.foldl_cons_of_done more first]
    exact later

end Account

/-! Exact sums. -/

namespace Booking

variable {bookings : List Booking} {commodity : Commodity} {path : List String}

/-- The exact sum of a commodity over the bookings to a path or below it. -/
def sumBelow (bookings : List Booking) (path : List String) (commodity : Commodity) : Rat :=
  Decimal.exactSum (Balance.amountsIn (entriesBelow bookings path) commodity)

/-- The exact sum of a commodity over the bookings to a path itself. -/
def sumAt (bookings : List Booking) (path : List String) (commodity : Commodity) : Rat :=
  Decimal.exactSum (Balance.amountsIn (entriesAt bookings path) commodity)

theorem exactSum_entries (bookings : List Booking) (commodity : Commodity) :
    Decimal.exactSum (Balance.amountsIn (bookings.map entry) commodity) =
      (bookings.map (valueIn commodity)).sum := by
  induction bookings with
  | nil => rfl
  | cons booking bookings ih =>
    rw [List.map_cons, List.map_cons, List.sum_cons, ← ih]
    by_cases same : booking.commodity = commodity
    · simp [entry, valueIn, Balance.amountsIn, same]
    · simp [entry, valueIn, Balance.amountsIn, same]

theorem sumBelow_cons (booking : Booking) (bookings : List Booking) (path : List String)
    (commodity : Commodity) :
    sumBelow (booking :: bookings) path commodity =
      (if path <+: booking.account then booking.valueIn commodity else 0) +
        sumBelow bookings path commodity := by
  rw [sumBelow, sumBelow, entriesBelow, entriesBelow, exactSum_entries, exactSum_entries]
  by_cases within : path <+: booking.account <;> simp [within]

theorem sumBelow_append (first second : List Booking) (path : List String)
    (commodity : Commodity) :
    sumBelow (first ++ second) path commodity =
      sumBelow first path commodity + sumBelow second path commodity := by
  induction first with
  | nil => simp [sumBelow, entriesBelow]
  | cons booking first ih => rw [List.cons_append, sumBelow_cons, sumBelow_cons, ih, add_assoc]

theorem sumBelow_flatMap {α : Type} (items : List α) (bookings : α → List Booking)
    (path : List String) (commodity : Commodity) :
    sumBelow (items.flatMap bookings) path commodity =
      (items.map fun item => sumBelow (bookings item) path commodity).sum := by
  induction items with
  | nil => rfl
  | cons item items ih => rw [List.flatMap_cons, sumBelow_append, ih, List.map_cons, List.sum_cons]

theorem sumAt_cons (booking : Booking) (bookings : List Booking) (path : List String)
    (commodity : Commodity) :
    sumAt (booking :: bookings) path commodity =
      (if booking.account = path then booking.valueIn commodity else 0) +
        sumAt bookings path commodity := by
  rw [sumAt, sumAt, entriesAt, entriesAt, exactSum_entries, exactSum_entries]
  by_cases here : booking.account = path <;> simp [here]

theorem append_singleton_prefix_append_cons {name first : String} {deeper : List String} :
    path ++ [name] <+: path ++ first :: deeper ↔ name = first := by
  rw [List.prefix_append_right_inj, List.cons_prefix_cons]
  simp

/-- What goes below a path goes to it or below exactly one of the names that come next. -/
theorem below_eq_at_add_next {names account : List String} (distinct : names.Nodup)
    (known : path <+: account → account = path ∨ ∃ name ∈ names, path ++ [name] <+: account)
    (value : Rat) :
    (if path <+: account then value else 0) = (if account = path then value else 0) +
      (names.map fun name => if path ++ [name] <+: account then value else 0).sum := by
  by_cases below : path <+: account
  · obtain ⟨rest, rfl⟩ := below
    cases rest with
    | nil =>
      have beyond (name : String) : ¬ path ++ [name] <+: path := by
        intro within
        have shorter := within.length_le
        simp at shorter
      simp [beyond]
    | cons first deeper =>
      have member : first ∈ names := by
        rcases known (List.prefix_append ..) with same | ⟨name, member, within⟩
        · simp at same
        · exact append_singleton_prefix_append_cons.mp within ▸ member
      have single := List.sum_map_eq_nsmul_single first
        (fun name => if path ++ [name] <+: path ++ first :: deeper then value else 0)
        (l := names) fun name distinct _ =>
          if_neg (mt append_singleton_prefix_append_cons.mp distinct)
      rw [single, List.count_eq_one_of_mem distinct member]
      simp
  · have apart : account ≠ path := by
      rintro rfl
      exact below (List.prefix_refl _)
    have none (name : String) : ¬ path ++ [name] <+: account :=
      fun within => below ((List.prefix_append ..).trans within)
    simp [below, apart, none]

theorem sumBelow_eq_sumAt_add_next {names : List String} (distinct : names.Nodup)
    (known : ∀ booking ∈ bookings, path <+: booking.account →
      booking.account = path ∨ ∃ name ∈ names, path ++ [name] <+: booking.account) :
    sumBelow bookings path commodity = sumAt bookings path commodity +
      (names.map fun name => sumBelow bookings (path ++ [name]) commodity).sum := by
  induction bookings with
  | nil => simp [sumBelow, sumAt, entriesBelow, entriesAt]
  | cons booking bookings ih =>
    have here := below_eq_at_add_next distinct (known booking (List.mem_cons_self ..))
      (booking.valueIn commodity)
    have later := ih fun other member => known other (List.mem_cons_of_mem _ member)
    simp only [sumBelow_cons, sumAt_cons, List.sum_map_add]
    rw [here, later]
    ring

end Booking

theorem Balance.value_amountOf_postAll {entries : List (Commodity × Decimal)} {total : Balance}
    {commodity : Commodity} (run : Balance.postAll ∅ entries = ⟨total, none⟩)
    (bounded : Decimal.gross (amountsIn entries commodity) < 2 ^ 96) :
    (total.amountOf commodity).value = Decimal.exactSum (amountsIn entries commodity) := by
  have summed := sumFrom?_postAll (by rw [run]) commodity
  obtain ⟨sum, sumEq, exact⟩ := Decimal.sumFrom?_of_gross_lt bounded
  rw [run, amountOf_empty, sumEq] at summed
  rw [← Option.some.inj summed]
  exact exact.value_eq

namespace Account

variable {tree account : Account} {bookings : List Booking} {commodity : Commodity}
  {path : List String}

theorem Represents.value_rollup (represents : tree.Represents bookings)
    (bounded : Booking.Bounded bookings) (path : List String) (commodity : Commodity) :
    ((tree.accountAt path).rollup.amountOf commodity).value =
      Booking.sumBelow bookings path commodity :=
  Balance.value_amountOf_postAll (represents.rollup path) (bounded.entriesBelow path commodity)

theorem Represents.value_own (represents : tree.Represents bookings)
    (bounded : Booking.Bounded bookings) (path : List String) (commodity : Commodity) :
    ((tree.accountAt path).own.amountOf commodity).value =
      Booking.sumAt bookings path commodity :=
  Balance.value_amountOf_postAll (represents.own path) (bounded.entriesAt path commodity)

theorem Represents.find?_below (represents : tree.Represents bookings)
    (found : tree.find? path = some account) {name : String} {sub : Account}
    (member : (name, sub) ∈ account.below.accounts) : tree.find? (path ++ [name]) = some sub := by
  have inner := ordered_find? represents.ordered found
  rw [find?_append, found, Option.bind_some, find?_cons, inner.find?_of_mem member,
    Option.bind_some, find?_nil]

/-- What goes below an account goes to it or below one of the accounts directly below it. -/
theorem Represents.known_below (represents : tree.Represents bookings)
    (found : tree.find? path = some account) {booking : Booking} (member : booking ∈ bookings)
    (within : path <+: booking.account) :
    booking.account = path ∨ ∃ name ∈ account.below.names, path ++ [name] <+: booking.account := by
  obtain ⟨rest, restEq⟩ := within
  cases rest with
  | nil => exact .inl (by simpa using restEq.symm)
  | cons first deeper =>
    have onPath : path ++ [first] <+: booking.account := ⟨deeper, by simpa using restEq⟩
    refine .inr ⟨first, ?_, onPath⟩
    have present := (represents.present (path ++ [first])).mpr (.inr ⟨booking, member, onPath⟩)
    by_contra absent
    rw [find?_append, found, Option.bind_some, find?_cons, Forest.find?_eq_none_iff.mpr absent]
      at present
    cases present

/-- A rollup is the own balance and the rollups directly below. -/
theorem Represents.rollup_eq_own_add_below (represents : tree.Represents bookings)
    (bounded : Booking.Bounded bookings) (found : tree.find? path = some account)
    (commodity : Commodity) :
    (account.rollup.amountOf commodity).value = (account.own.amountOf commodity).value +
      (account.below.accounts.map fun sub => (sub.2.rollup.amountOf commodity).value).sum := by
  have here : tree.accountAt path = account := by rw [accountAt, found, Option.getD_some]
  have next : (account.below.accounts.map fun sub => (sub.2.rollup.amountOf commodity).value) =
      account.below.names.map fun name =>
        Booking.sumBelow bookings (path ++ [name]) commodity := by
    rw [Forest.names, List.map_map]
    refine List.map_congr_left fun sub member => ?_
    have sumEq := represents.value_rollup bounded (path ++ [sub.1]) commodity
    rw [accountAt, represents.find?_below found member, Option.getD_some] at sumEq
    exact sumEq
  rw [next, ← here, represents.value_rollup bounded, represents.value_own bounded, here]
  refine Booking.sumBelow_eq_sumAt_add_next ?_ fun booking member => ?_
  · exact (ordered_find? represents.ordered found).nodup_names
  · exact represents.known_below found member

end Account

end DoubleEntry

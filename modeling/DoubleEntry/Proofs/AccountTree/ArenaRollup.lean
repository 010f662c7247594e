import DoubleEntry.Proofs.AccountTree.ArenaPosting
import DoubleEntry.Proofs.AccountTree.Rollup

/-! Arenas of whole runs of postings. An arena has exactly the accounts to which or below which
something was booked, each at the end of one path, and the balances in it are what was booked, added
up in order. -/

namespace DoubleEntry.Arena

variable {arena : Arena} {bookings : List Booking} {index : Nat} {path : List String}

/-- Posts bookings in turn, up to the first sum that is too large. -/
def book (arena : Arena) (bookings : List Booking) : Progress Arena Overflow :=
  Progress.foldl (fun arena booking =>
    arena.post booking.commodity booking.amount booking.account) arena bookings

theorem account_empty : (∅ : Arena).account = {} := rfl

/-- A run of bookings in an arena is a run of these bookings in its account tree. -/
theorem account_book (arena : Arena) (bookings : List Booking) :
    (arena.book bookings).lift account = arena.account.book bookings :=
  Progress.lift_foldl (fun arena booking => arena.account_post _ _ booking.account) arena bookings

theorem represents_account_book (done : ((∅ : Arena).book bookings).fault = none) :
    ((∅ : Arena).book bookings).state.account.Represents bookings := by
  have run := (∅ : Arena).account_book bookings
  rw [account_empty] at run
  have unfaulted : (({} : Account).book bookings).fault = none :=
    (congrArg Progress.fault run).symm.trans done
  have same : ((∅ : Arena).book bookings).state.account = (({} : Account).book bookings).state :=
    congrArg Progress.state run
  rw [same]
  exact Account.represents_empty.book unfaulted

theorem isSome_rollupOf?_iff : (arena.rollupOf? path).isSome ↔ (arena.account.find? path).isSome := by
  rw [rollupOf?, find?_account, Option.isSome_map, Option.isSome_map]

theorem accountAt_of_find? (found : arena.find? path = some index) :
    arena.account.accountAt path = arena.accountOf index := by
  rw [Account.accountAt, find?_account, found, Option.map_some, Option.getD_some]

theorem rollup_accountAt {rollup : Balance} (found : arena.rollupOf? path = some rollup) :
    (arena.account.accountAt path).rollup = rollup := by
  obtain ⟨index, reached, rfl⟩ := Option.map_eq_some_iff.mp found
  rw [accountAt_of_find? reached, rollup_accountOf]

theorem own_accountAt {own : Balance} (found : arena.ownOf? path = some own) :
    (arena.account.accountAt path).own = own := by
  obtain ⟨index, reached, rfl⟩ := Option.map_eq_some_iff.mp found
  rw [accountAt_of_find? reached, own_accountOf]

/-- The rollups of the accounts directly below an index are those of the indices in it. -/
theorem rollups_below (arena : Arena) (index : Nat) (commodity : Commodity) :
    ((arena.accountOf index).below.accounts.map fun sub =>
        (sub.2.rollup.amountOf commodity).value) =
      (arena.node index).below.values.map fun child =>
        ((arena.node child).rollup.amountOf commodity).value := by
  rw [accounts_below_accountOf, SortedMap.values, List.map_map, List.map_map]
  apply List.map_congr_left
  intro entry _
  rw [Function.comp_apply, Function.comp_apply, rollup_accountOf]

/-- What a run of bookings that does not stop leaves of an empty arena. An account is there exactly
if something was booked to it or below it. Its rollup is what was booked to it or below it, added up
in order, and its own balance is what was booked to it; the total is everything. Every node is
reached on exactly one path, and links only to later nodes, which are those one name further down.
While the amounts stay within bounds, a rollup is exactly the own balance and the rollups directly
below. -/
theorem book_represents (done : ((∅ : Arena).book bookings).fault = none) :
    let arena := ((∅ : Arena).book bookings).state
    (∀ path, (arena.rollupOf? path).isSome ↔
      path = [] ∨ ∃ booking ∈ bookings, path <+: booking.account) ∧
    (∀ path rollup, arena.rollupOf? path = some rollup →
      Balance.postAll ∅ (Booking.entriesBelow bookings path) = ⟨rollup, none⟩) ∧
    (∀ path own, arena.ownOf? path = some own →
      Balance.postAll ∅ (Booking.entriesAt bookings path) = ⟨own, none⟩) ∧
    Balance.postAll ∅ (bookings.map Booking.entry) = ⟨arena.total, none⟩ ∧
    (∀ index < arena.nodes.size, ∃ path, arena.find? path = some index ∧
      (∀ other, arena.find? other = some index → other = path) ∧
      ∀ name child, arena.child? index name = some child →
        index < child ∧ child < arena.nodes.size ∧ arena.find? (path ++ [name]) = some child) ∧
    (Booking.Bounded bookings → ∀ index < arena.nodes.size, ∀ commodity,
      ((arena.node index).rollup.amountOf commodity).value =
        ((arena.node index).own.amountOf commodity).value +
          ((arena.node index).below.values.map fun child =>
            ((arena.node child).rollup.amountOf commodity).value).sum) := by
  intro arena
  have represents : arena.account.Represents bookings := represents_account_book done
  refine ⟨?_, ?_, ?_, ?_, ?_, ?_⟩
  · intro path
    exact isSome_rollupOf?_iff.trans (represents.present path)
  · intro path rollup found
    rw [represents.rollup path, rollup_accountAt found]
  · intro path own found
    rw [represents.own path, own_accountAt found]
  · have everything : Booking.entriesBelow bookings [] = bookings.map Booking.entry := by
      simp [Booking.entriesBelow]
    have atRoot : arena.rollupOf? [] = some arena.total := rfl
    rw [← everything, represents.rollup [], rollup_accountAt atRoot]
  · intro index inside
    obtain ⟨path, found⟩ := exists_find? inside
    refine ⟨path, found, ?_, ?_⟩
    · intro other reached
      exact findFrom_unique reached found
    · intro name child link
      refine ⟨arena.linked.later link, arena.linked.inside link, ?_⟩
      have next := arena.findFrom_concat 0 path name
      rw [findFrom, ← find?, findFrom, ← find?, found, Option.bind_some, link] at next
      exact next
  · intro bounded index inside commodity
    obtain ⟨path, found⟩ := exists_find? inside
    have reached : arena.account.find? path = some (arena.accountOf index) := by
      rw [find?_account, found, Option.map_some]
    have sum := represents.rollup_eq_own_add_below bounded reached commodity
    rw [rollup_accountOf, own_accountOf, rollups_below] at sum
    exact sum

/-- Amounts of different lengths at the top, in an account, in one below it and in another one that
cancels out. -/
def severalBanks : List Booking :=
  let dollars : Commodity := ⟨"$", true⟩
  [⟨["Bank", "Giro"], dollars, .spelled "10.25"⟩,
   ⟨[], ⟨" BTC", false⟩, .spelled "0.00000001"⟩,
   ⟨["Bank"], dollars, .spelled "-0.5"⟩,
   ⟨["Bank", "Card"], dollars, .spelled "3"⟩,
   ⟨["Bank", "Card"], dollars, .spelled "-3.000"⟩]

theorem book_represents_severalBanks :
    ((∅ : Arena).book severalBanks).fault = none ∧ Booking.Bounded severalBanks ∧
    let arena := ((∅ : Arena).book severalBanks).state
    arena.nodes.size = 4 ∧ arena.find? ["Bank"] = some 1 ∧
    (arena.node 1).below.entries = [("Card", 3), ("Giro", 2)] ∧
    arena.rollupOf? ["Bank"] = some (.single ⟨"$", true⟩ (.spelled "9.750")) ∧
    arena.ownOf? ["Bank"] = some (.single ⟨"$", true⟩ (.spelled "-0.5")) ∧
    Balance.postAll ∅ (Booking.entriesBelow severalBanks ["Bank"]) =
      ⟨.single ⟨"$", true⟩ (.spelled "9.750"), none⟩ ∧
    Balance.postAll ∅ (Booking.entriesAt severalBanks ["Bank"]) =
      ⟨.single ⟨"$", true⟩ (.spelled "-0.5"), none⟩ ∧
    Balance.postAll ∅ (severalBanks.map Booking.entry) = ⟨arena.total, none⟩ ∧
    ∀ commodity, ((arena.node 1).rollup.amountOf commodity).value =
      ((arena.node 1).own.amountOf commodity).value +
        ((arena.node 1).below.values.map fun child =>
          ((arena.node child).rollup.amountOf commodity).value).sum := by
  have done : ((∅ : Arena).book severalBanks).fault = none := by decide
  have bounded : Booking.Bounded severalBanks := Booking.bounded_of_mentioned (by decide)
  obtain ⟨_, rollups, owns, whole, _, sums⟩ := book_represents done
  have size : ((∅ : Arena).book severalBanks).state.nodes.size = 4 := by decide
  have rollup : ((∅ : Arena).book severalBanks).state.rollupOf? ["Bank"] =
      some (.single ⟨"$", true⟩ (.spelled "9.750")) := by decide
  have own : ((∅ : Arena).book severalBanks).state.ownOf? ["Bank"] =
      some (.single ⟨"$", true⟩ (.spelled "-0.5")) := by decide
  refine ⟨done, bounded, size, by decide, by decide, rollup, own, rollups _ _ rollup,
    owns _ _ own, whole, sums bounded 1 ?_⟩
  rw [size]
  decide

end DoubleEntry.Arena

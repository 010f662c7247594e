import DoubleEntry.Ledger
import DoubleEntry.Proofs.Progress
import DoubleEntry.Proofs.Record.Legible

/-! Loading is atomic. The journal of a ledger is always the one that reading all files from scratch
gave at the last load or reload that succeeded; a failure at any of the files leaves it as it was.
-/

namespace DoubleEntry

namespace Directive

def price? : Directive → Option Price
  | .price found => some found
  | _ => none

def ignoredSymbol? : Directive → Option String
  | .ignoreSymbol found => some found
  | _ => none

def defaultCommodity? : Directive → Option Commodity
  | .defaultCommodity found => some found
  | _ => none

end Directive

theorem SortedSet.insertAll_append {κ : Type} [Ord κ] [Std.TransOrd κ] [Std.LawfulEqOrd κ]
    (set : SortedSet κ) (first second : List κ) :
    insertAll set (first ++ second) = insertAll (insertAll set first) second :=
  List.foldl_append

namespace Journal

/-- The journal that consists of some directives and of nothing else. -/
def ofDirectives (directives : List Directive) : Journal :=
  let transactions := directives.filterMap Directive.transaction?
  { transactions
    accounts := SortedSet.insertAll ∅
      (transactions.flatMap fun transaction => transaction.postings.map Posting.account)
    commodities := SortedSet.insertAll ∅
      (transactions.flatMap fun transaction => transaction.postings.flatMap commoditiesOf)
    prices := directives.filterMap Directive.price?
    defaultCommodity := (directives.filterMap Directive.defaultCommodity?).getLast?
    ignoredSymbols := directives.filterMap Directive.ignoredSymbol? }

theorem addDirective_ofDirectives (directives : List Directive) (directive : Directive) :
    (ofDirectives directives).addDirective directive =
      ofDirectives (directives ++ [directive]) := by
  cases directive <;>
    simp [ofDirectives, addDirective, addTransaction, Directive.transaction?, Directive.price?,
      Directive.ignoredSymbol?, Directive.defaultCommodity?, SortedSet.insertAll_append,
      List.filterMap_cons]

theorem addAll_ofDirectives (before : List Directive) (directives : List Located) :
    (ofDirectives before).addAll directives =
      ofDirectives (before ++ directives.map (·.directive)) := by
  induction directives generalizing before with
  | nil =>
    rw [List.map_nil, List.append_nil]
    rfl
  | cons located directives ih =>
    rw [List.map_cons, List.append_cons, ← ih, ← addDirective_ofDirectives]
    rfl

/-- One file more, with a record of it. -/
def addNext (fs : FileSystem) : Journal × List LogRecord → String →
    Progress (Journal × List LogRecord) ParseError
  | (journal, records), path =>
    match journal.addFile fs path with
    | .ok (journal, count) => { state := (journal, records ++ [loadedRecord path count]) }
    | .error error => { state := (journal, records), fault := some error }

/-- Adding files in turn stops at the first one at fault; otherwise what they all hold is added. -/
theorem foldl_addNext (fs : FileSystem) (paths : List String) (before : List Directive)
    (records : List LogRecord) :
    ((Progress.foldl (addNext fs) (ofDirectives before, records) paths).lift Prod.fst).toExcept =
      (paths.mapM (parseFile fs)).map fun parts =>
        ofDirectives (before ++ parts.flatten.map (·.directive)) := by
  induction paths generalizing before records with
  | nil => simp [Progress.lift, Progress.toExcept, Except.map, pure, Except.pure]
  | cons path paths ih =>
    rw [Progress.foldl, List.mapM_cons]
    cases parsed : parseFile fs path with
    | error error =>
      have stops : addNext fs (ofDirectives before, records) path =
          ⟨(ofDirectives before, records), some error⟩ := by
        simp [addNext, addFile, parsed, bind, Except.bind]
      rw [stops, Progress.andThen_fault]
      rfl
    | ok directives =>
      have goesOn : addNext fs (ofDirectives before, records) path =
          ⟨(ofDirectives (before ++ directives.map (·.directive)),
            records ++ [loadedRecord path directives.length]), none⟩ := by
        simp [addNext, addFile, parsed, bind, Except.bind, pure, Except.pure, addAll_ofDirectives]
      rw [goesOn, Progress.andThen_ok, ih]
      cases rest : paths.mapM (parseFile fs) with
      | error error => rfl
      | ok parts => simp [bind, Except.bind, pure, Except.pure, Except.map]

end Journal

namespace Config

/-- The journal of a configuration, read from scratch: the price database and then the files in
their order, all of them, sorted in the end. -/
def readJournal (config : Config) (terms : List SortTerm) (fs : FileSystem) :
    Except ParseError Journal := do
  let parts ← (config.priceFile.toList ++ config.files).mapM (parseFile fs)
  return (Journal.ofDirectives (parts.flatten.map (·.directive))).sort terms

theorem readJournal_eq (config : Config) (terms : List SortTerm) (fs : FileSystem) :
    config.readJournal terms fs =
      ((Journal.addFiles fs config.sources).lift Prod.fst).toExcept.map (·.sort terms) := by
  have added := Journal.foldl_addNext fs config.sources [] []
  change _ = ((Progress.lift (Progress.foldl (Journal.addNext fs) (Journal.ofDirectives [], [])
    config.sources) Prod.fst).toExcept.map _)
  rw [added, readJournal, sources]
  cases (config.priceFile.toList ++ config.files).mapM (parseFile fs) with
  | error error => rfl
  | ok parts => rfl

end Config

namespace Ledger

/-- Everything that a load can do. -/
theorem load_cases (ledger : Ledger) (fs : FileSystem) :
    (ledger.config.hasJournal = false ∧
      ledger.load fs = ⟨(ledger, []), some .noJournalFiles⟩) ∨
    (ledger.config.hasJournal = true ∧ ∃ error records,
      ledger.config.readJournal ledger.sortTerms fs = .error error ∧
        ledger.load fs = ⟨(ledger, records), some (.parse error)⟩) ∨
    (ledger.config.hasJournal = true ∧ ∃ journal records,
      ledger.config.readJournal ledger.sortTerms fs = .ok journal ∧
        ledger.load fs = ⟨({ ledger with journal? := some journal }, records), none⟩) := by
  rw [Config.readJournal_eq]
  cases any : ledger.config.hasJournal with
  | false => exact .inl ⟨rfl, by simp [load, any]⟩
  | true =>
    right
    rcases added : Journal.addFiles fs ledger.config.sources with ⟨⟨journal, records⟩, _ | error⟩
    · exact .inr ⟨rfl, journal.sort ledger.sortTerms, _, rfl, by simp [load, any, added]; rfl⟩
    · exact .inl ⟨rfl, error, records, rfl, by simp [load, any, added]⟩

/-- A request to load a journal, or to load it again, and the files as they are by then. -/
inductive Call where
  | load (files : FileSystem)
  | reload (files : FileSystem)

namespace Call

def files : Call → FileSystem
  | .load files | .reload files => files

def carryOut (ledger : Ledger) : Call → Progress (Ledger × List LogRecord) LedgerError
  | .load files => ledger.load files
  | .reload files => ledger.reload files

end Call

/-- The ledger after some calls, whether they succeed or not. -/
def afterCalls (ledger : Ledger) (calls : List Call) : Ledger :=
  calls.foldl (fun ledger call => (call.carryOut ledger).state.1) ledger

def successes : Ledger → List Call → List Call
  | _, [] => []
  | ledger, call :: calls =>
    let later := successes (call.carryOut ledger).state.1 calls
    if (call.carryOut ledger).fault.isNone then call :: later else later

theorem reload_eq_load {ledger : Ledger} (loaded : ledger.journal? ≠ none) (fs : FileSystem) :
    ledger.reload fs = ledger.load fs := by
  rw [reload, if_neg]
  simpa [Option.isNone_iff_eq_none] using loaded

theorem carryOut_eq_load {ledger : Ledger} {call : Call}
    (allowed : call = .load call.files ∨ ledger.journal? ≠ none) :
    call.carryOut ledger = ledger.load call.files := by
  cases call with
  | load files => rfl
  | reload files =>
    obtain other | loaded := allowed
    · cases other
    · exact reload_eq_load loaded files

theorem carryOut_of_not_allowed {ledger : Ledger} {call : Call}
    (forbidden : ¬ (call = .load call.files ∨ ledger.journal? ≠ none)) :
    call.carryOut ledger = ⟨(ledger, []), some .notLoaded⟩ := by
  obtain ⟨notLoad, notLoaded⟩ := not_or.mp forbidden
  cases call with
  | load files => exact absurd rfl notLoad
  | reload files => exact if_pos (Option.isNone_iff_eq_none.mpr (of_not_not notLoaded))

/-- Everything that a call can do: it fails and changes nothing, or it puts the journal that is read
from scratch in place. -/
theorem carryOut_cases (ledger : Ledger) (call : Call) :
    ((call.carryOut ledger).fault ≠ none ∧ (call.carryOut ledger).state.1 = ledger) ∨
    ((call.carryOut ledger).fault = none ∧
      (call = .load call.files ∨ ledger.journal? ≠ none) ∧
      ∃ journal, ledger.config.readJournal ledger.sortTerms call.files = .ok journal ∧
        (call.carryOut ledger).state.1 = { ledger with journal? := some journal }) := by
  by_cases allowed : call = .load call.files ∨ ledger.journal? ≠ none
  · rw [carryOut_eq_load allowed]
    obtain ⟨_, run⟩ | ⟨_, error, records, _, run⟩ | ⟨_, journal, records, read, run⟩ :=
      load_cases ledger call.files
    · exact .inl (by simp [run])
    · exact .inl (by simp [run])
    · exact .inr ⟨by rw [run], allowed, journal, read, by rw [run]⟩
  · exact .inl (by simp [carryOut_of_not_allowed allowed])

theorem fault_reload_eq_notLoaded_iff (ledger : Ledger) (fs : FileSystem) :
    (ledger.reload fs).fault = some .notLoaded ↔ ledger.journal? = none := by
  by_cases notLoaded : ledger.journal? = none
  · simp [reload, notLoaded]
  · rw [reload_eq_load notLoaded]
    obtain ⟨_, run⟩ | ⟨_, error, records, _, run⟩ | ⟨_, journal, records, _, run⟩ :=
      load_cases ledger fs <;> simp [run, notLoaded]

theorem fault_load_eq_none_iff (ledger : Ledger) (fs : FileSystem) :
    (ledger.load fs).fault = none ↔ ledger.config.hasJournal = true ∧
      ∃ journal, ledger.config.readJournal ledger.sortTerms fs = .ok journal := by
  obtain ⟨any, run⟩ | ⟨any, error, records, read, run⟩ | ⟨any, journal, records, read, run⟩ :=
    load_cases ledger fs <;> simp [*]

theorem fault_carryOut_eq_none_iff (ledger : Ledger) (call : Call) :
    (call.carryOut ledger).fault = none ↔
      (call = .load call.files ∨ ledger.journal? ≠ none) ∧ ledger.config.hasJournal = true ∧
        ∃ journal, ledger.config.readJournal ledger.sortTerms call.files = .ok journal := by
  by_cases allowed : call = .load call.files ∨ ledger.journal? ≠ none
  · rw [carryOut_eq_load allowed, fault_load_eq_none_iff, and_iff_right allowed]
  · rw [carryOut_of_not_allowed allowed]
    exact iff_of_false (Option.some_ne_none _) fun whole => allowed whole.1

/-- A call that fails changes nothing. -/
theorem state_of_fault {ledger : Ledger} {call : Call}
    (failed : (call.carryOut ledger).fault ≠ none) : (call.carryOut ledger).state.1 = ledger := by
  obtain ⟨_, same⟩ | ⟨done, _⟩ := carryOut_cases ledger call
  · exact same
  · exact absurd done failed

theorem successes_cons_of_fault {ledger : Ledger} {call : Call}
    (failed : (call.carryOut ledger).fault ≠ none) (calls : List Call) :
    ledger.successes (call :: calls) = ledger.successes calls := by
  rw [successes, state_of_fault failed, if_neg]
  rwa [Option.isNone_iff_eq_none]

theorem successes_cons_of_done {ledger : Ledger} {call : Call}
    (done : (call.carryOut ledger).fault = none) (calls : List Call) :
    ledger.successes (call :: calls) =
      call :: (call.carryOut ledger).state.1.successes calls := by
  rw [successes, done]
  rfl

/-- A ledger of `config` after calls of which those of `good` have succeeded. -/
structure Holds (config : Config) (terms : List SortTerm) (good : List Call) (ledger : Ledger) :
    Prop where
  config_eq : ledger.config = config
  terms_eq : ledger.sortTerms = terms
  journal_eq : ledger.journal?.map .ok =
    good.getLast?.map fun call => config.readJournal terms call.files
  began : good ≠ [] → ∃ files, .load files ∈ good

namespace Holds

variable {config : Config} {terms : List SortTerm} {good : List Call} {ledger : Ledger}

theorem start (made : ofConfig config = .ok ledger) : Holds config ledger.sortTerms [] ledger := by
  unfold ofConfig at made
  cases read : config.sortTerms.mapM SortTerm.ofText with
  | error term =>
    rw [read] at made
    cases made
  | ok terms =>
    rw [read] at made
    cases made
    exact ⟨rfl, rfl, rfl, fun some => absurd rfl some⟩

theorem journal?_eq_none_iff (holds : Holds config terms good ledger) :
    ledger.journal? = none ↔ good = [] := by
  rw [← List.getLast?_eq_none_iff, ← Option.map_eq_none_iff, holds.journal_eq,
    Option.map_eq_none_iff]

theorem journal?_ne_none_iff (holds : Holds config terms good ledger) :
    ledger.journal? ≠ none ↔ ∃ files, .load files ∈ good := by
  rw [Ne, holds.journal?_eq_none_iff]
  constructor
  · exact holds.began
  · rintro ⟨files, found⟩ rfl
    cases found

theorem succeed (holds : Holds config terms good ledger) {call : Call}
    (done : (call.carryOut ledger).fault = none) :
    Holds config terms (good ++ [call]) (call.carryOut ledger).state.1 := by
  obtain ⟨failed, _⟩ | ⟨_, allowed, journal, read, replaced⟩ := carryOut_cases ledger call
  · exact absurd done failed
  · rw [holds.config_eq, holds.terms_eq] at read
    rw [replaced]
    refine ⟨holds.config_eq, holds.terms_eq, by simp [read], fun _ => ?_⟩
    obtain load | loaded := allowed
    · exact ⟨call.files, by simp [← load]⟩
    · obtain ⟨files, found⟩ := holds.journal?_ne_none_iff.mp loaded
      exact ⟨files, List.mem_append_left _ found⟩

theorem run (holds : Holds config terms good ledger) (calls : List Call) :
    Holds config terms (good ++ ledger.successes calls) (ledger.afterCalls calls) := by
  induction calls generalizing good ledger with
  | nil =>
    rw [successes, List.append_nil]
    exact holds
  | cons call calls ih =>
    rw [afterCalls, List.foldl_cons]
    by_cases done : (call.carryOut ledger).fault = none
    · rw [successes_cons_of_done done, List.append_cons]
      exact ih (holds.succeed done)
    · rw [successes_cons_of_fault done, state_of_fault done]
      exact ih holds

end Holds

/-- After any calls, on files that may change in between, the journal is the one read from scratch
by the last call that succeeded, and there is none before. A call that fails leaves the ledger as it
is. A reload finds nothing loaded unless a load has succeeded. Otherwise a call succeeds if there is
something to read and reading it from scratch does not fail. -/
theorem loading_is_atomic {config : Config} {ledger : Ledger} (made : ofConfig config = .ok ledger)
    (calls : List Call) :
    let now := ledger.afterCalls calls
    let good := ledger.successes calls
    now.journal?.map .ok =
      good.getLast?.map (fun call => config.readJournal ledger.sortTerms call.files) ∧
    (∀ call : Call, (call.carryOut now).fault ≠ none → (call.carryOut now).state.1 = now) ∧
    (∀ fs, (now.reload fs).fault = some .notLoaded ↔ ¬ ∃ files, .load files ∈ good) ∧
    ∀ call : Call, (call.carryOut now).fault = none ↔
      (call = .load call.files ∨ ∃ files, .load files ∈ good) ∧ config.hasJournal = true ∧
        ∃ journal, config.readJournal ledger.sortTerms call.files = .ok journal := by
  intro now good
  have holds : Holds config ledger.sortTerms good now := (Holds.start made).run calls
  refine ⟨holds.journal_eq, fun _ => state_of_fault, fun fs => ?_, fun call => ?_⟩
  · rw [fault_reload_eq_notLoaded_iff, ← holds.journal?_ne_none_iff, not_not]
  · rw [fault_carryOut_eq_none_iff, holds.config_eq, holds.terms_eq, holds.journal?_ne_none_iff]

end Ledger

/-- Two files and a price database, the latest transaction first. -/
def Config.household : Config :=
  { (default : Config) with
    files := ["home", "shop"], priceFile := some "prices", sort := some "-d" }

namespace FileSystem

def writeText (fs : FileSystem) (path text : String) : FileSystem :=
  fs.write path (.file text.toUTF8.data.toList)

/-- What the files of the household hold, with `shop` as the last of them. -/
def household (shop : String) : FileSystem :=
  (((ofWorkDir []).writeText "prices" "P 2013/2/1 12:00:00 AU $40\n").writeText "home"
    "2013/2/1 Rent\n\tFlat\t$5\n\tBank\n").writeText "shop" shop

/-- All files can be read. -/
def complete : FileSystem := household "2013/2/2 Tea\n\tTea\t$1\n\tBank\n"

/-- The last file starts with a posting. -/
def headless : FileSystem := household "\tTea\t$1\n\tBank\n"

end FileSystem

open FileSystem (complete headless)

theorem Config.readJournal_headless (terms : List SortTerm) :
    household.readJournal terms headless = .error ⟨.unexpectedPosting, some ⟨"shop", 1⟩⟩ := by
  have parsed : (household.priceFile.toList ++ household.files).mapM (parseFile headless) =
      .error ⟨.unexpectedPosting, some ⟨"shop", 1⟩⟩ := by
    rw [funext (parseFile_eq_gather headless)]
    decide +kernel
  rw [readJournal, parsed]
  rfl

/-- The transaction of the first file. -/
def firstOfFebruary : Transaction :=
  ⟨(Date.ofParts? 2013 2 1).get (by decide), "Rent",
    [⟨["Flat"], some (.single ⟨"$", true⟩ (.spelled "5"))⟩, ⟨["Bank"], none⟩]⟩

/-- The transaction of the second file, if it can be read. -/
def secondOfFebruary : Transaction :=
  ⟨(Date.ofParts? 2013 2 2).get (by decide), "Tea",
    [⟨["Tea"], some (.single ⟨"$", true⟩ (.spelled "1"))⟩, ⟨["Bank"], none⟩]⟩

theorem sortTransactions_february :
    sortTransactions [⟨.date, true⟩] [firstOfFebruary, secondOfFebruary] =
      [secondOfFebruary, firstOfFebruary] := by
  have later : (SortTerm.orderBy [⟨.date, true⟩] firstOfFebruary secondOfFebruary).isLE = false := by
    decide
  simp [sortTransactions, List.mergeSort, later]

theorem Config.readJournal_complete :
    ∃ journal, household.readJournal [⟨.date, true⟩] complete = .ok journal ∧
      journal.transactions = [secondOfFebruary, firstOfFebruary] := by
  have parsed : ((household.priceFile.toList ++ household.files).mapM (parseFile complete)).map
      (fun parts => (Journal.ofDirectives (parts.flatten.map (·.directive))).transactions) =
      .ok [firstOfFebruary, secondOfFebruary] := by
    rw [funext (parseFile_eq_gather complete)]
    decide +kernel
  obtain ⟨parts, read, given⟩ := exists_of_map_eq_ok parsed
  rw [readJournal, read]
  refine ⟨_, rfl, ?_⟩
  rw [Journal.sort, given, sortTransactions_february]

namespace Ledger

def household : Ledger := { config := .household, sortTerms := [⟨.date, true⟩] }

theorem loading_is_atomic_household :
    let calls : List Call := [.reload complete, .load complete, .load headless]
    let now := household.afterCalls calls
    let good := household.successes calls
    ofConfig .household = .ok household ∧ good = [.load complete] ∧
    now.journal?.map Journal.transactions = some [secondOfFebruary, firstOfFebruary] ∧
    now.journal?.map .ok =
      good.getLast?.map (fun call => Config.household.readJournal household.sortTerms call.files) ∧
    (∀ call : Call, (call.carryOut now).fault ≠ none → (call.carryOut now).state.1 = now) ∧
    (∀ fs, (now.reload fs).fault = some .notLoaded ↔ ¬ ∃ files, .load files ∈ good) ∧
    ∀ call : Call, (call.carryOut now).fault = none ↔
      (call = .load call.files ∨ ∃ files, .load files ∈ good) ∧
        Config.household.hasJournal = true ∧ ∃ journal,
          Config.household.readJournal household.sortTerms call.files = .ok journal := by
  have made : ofConfig .household = .ok household := by
    have terms : Config.household.sortTerms.mapM SortTerm.ofText = .ok [⟨.date, true⟩] := by
      decide +kernel
    rw [ofConfig, terms]
    rfl
  have early : ((Call.reload complete).carryOut household).fault ≠ none := by
    have notLoaded := (fault_reload_eq_notLoaded_iff household complete).mpr rfl
    rw [Call.carryOut, notLoaded]
    exact Option.some_ne_none _
  obtain ⟨journal, read, latestFirst⟩ := Config.readJournal_complete
  have done : ((Call.load complete).carryOut household).fault = none :=
    (fault_load_eq_none_iff household complete).mpr ⟨rfl, journal, read⟩
  have late : ((Call.load headless).carryOut
      ((Call.load complete).carryOut household).state.1).fault ≠ none := by
    have holds := (Holds.start made).succeed done
    intro none
    obtain ⟨_, journal, read⟩ := (fault_load_eq_none_iff _ headless).mp none
    rw [holds.config_eq, holds.terms_eq, Config.readJournal_headless] at read
    cases read
  have good : household.successes [.reload complete, .load complete, .load headless] =
      [.load complete] := by
    rw [successes_cons_of_fault early, successes_cons_of_done done, successes_cons_of_fault late,
      successes]
  have atomic := loading_is_atomic made [.reload complete, .load complete, .load headless]
  refine ⟨made, good, ?_, atomic⟩
  have loaded := atomic.1
  rw [good] at loaded
  change _ = some (Config.household.readJournal [⟨.date, true⟩] complete) at loaded
  rw [read, Option.map_eq_some_iff] at loaded
  obtain ⟨now, held, same⟩ := loaded
  rw [held, Except.ok.inj same, Option.map_some, latestFirst]

end Ledger

end DoubleEntry

import DoubleEntry.Parse
import DoubleEntry.Proofs.Amount.Printing
import DoubleEntry.Proofs.Calendar
import DoubleEntry.Proofs.Record.Streaming
import DoubleEntry.Proofs.Source.Comments
import DoubleEntry.Proofs.Source.TextLines
import Mathlib.Data.List.Chain
import Mathlib.Data.List.Infix

/-! What the transactions that a journal gives look like. Each has a year of four digits and a
description without blanks around it. An account name is without tabs and without two blanks in a
row, and an amount is of a single commodity. -/

namespace DoubleEntry

open Text

/-! Account names. -/

/-- A text in which an account does not end: no tab, and no two blanks in a row. -/
structure Unbroken (text : List Char) : Prop where
  tabs : '\t' ∉ text
  blanks : text.IsChain fun c d => ¬ (isBlank c = true ∧ isBlank d = true)

variable {name text rest : List Char}

theorem Unbroken.of_isInfix (unbroken : Unbroken text) (inside : name <:+: text) :
    Unbroken name where
  tabs member := unbroken.tabs (inside.subset member)
  blanks := unbroken.blanks.infix inside

def endsAccount (c : Char) (rest : List Char) : Bool :=
  c == '\t' || isBlank c && rest.head?.any isBlank

theorem splitPosting_cons (c : Char) (rest : List Char) :
    splitPosting (c :: rest) = if endsAccount c rest then ([], c :: rest)
      else (c :: (splitPosting rest).1, (splitPosting rest).2) := rfl

theorem Unbroken.cons_iff {c : Char} :
    Unbroken (c :: rest) ↔ endsAccount c rest = false ∧ Unbroken rest := by
  have ends : endsAccount c rest = false ↔
      c ≠ '\t' ∧ ∀ d ∈ rest.head?, ¬ (isBlank c = true ∧ isBlank d = true) := by
    rw [endsAccount, Bool.or_eq_false_iff, beq_eq_false_iff_ne, Bool.and_eq_false_iff]
    refine and_congr_right fun _ => ?_
    cases rest with
    | nil => simp
    | cons d rest => cases isBlank c <;> simp
  rw [ends]
  constructor
  · rintro ⟨tabs, blanks⟩
    rw [List.mem_cons, not_or] at tabs
    rw [List.isChain_cons] at blanks
    exact ⟨⟨Ne.symm tabs.1, blanks.1⟩, tabs.2, blanks.2⟩
  · rintro ⟨⟨tab, blank⟩, tabs, blanks⟩
    refine ⟨?_, List.isChain_cons.mpr ⟨blank, blanks⟩⟩
    rw [List.mem_cons, not_or]
    exact ⟨Ne.symm tab, tabs⟩

theorem splitPosting_append (text : List Char) :
    (splitPosting text).1 ++ (splitPosting text).2 = text := by
  induction text with
  | nil => rfl
  | cons c rest ih =>
    rw [splitPosting_cons]
    split
    · rfl
    · exact congrArg (c :: ·) ih

/-- An account is cut off at the first place where it can end. -/
theorem unbroken_splitPosting (text : List Char) : Unbroken (splitPosting text).1 := by
  induction text with
  | nil => exact ⟨List.not_mem_nil, .nil⟩
  | cons c rest ih =>
    rw [splitPosting_cons]
    split
    · exact ⟨List.not_mem_nil, .nil⟩
    case isFalse goesOn =>
      refine Unbroken.cons_iff.mpr ⟨?_, ih⟩
      rw [Bool.not_eq_true] at goesOn
      -- within the account a blank at its end is followed by nothing
      cases account : (splitPosting rest).1 with
      | nil =>
        rw [endsAccount, Bool.or_eq_false_iff] at goesOn ⊢
        exact ⟨goesOn.1, by simp⟩
      | cons d more =>
        have whole := splitPosting_append rest
        rw [account] at whole
        rw [← whole] at goesOn
        exact goesOn

/-- An account without blanks at its end is cut off in front of a text at which accounts end. -/
theorem splitPosting_of_unbroken (unbroken : Unbroken name)
    (ends : ∀ c ∈ name.getLast?, isBlank c = false) (cut : splitPosting rest = ([], rest)) :
    splitPosting (name ++ rest) = (name, rest) := by
  induction name with
  | nil => exact cut
  | cons c name ih =>
    obtain ⟨goesOn, unbroken⟩ := Unbroken.cons_iff.mp unbroken
    have goesOn' : endsAccount c (name ++ rest) = false := by
      cases name with
      | nil =>
        rw [endsAccount, Bool.or_eq_false_iff] at goesOn ⊢
        exact ⟨goesOn.1, by simp [ends c rfl]⟩
      | cons => exact goesOn
    have ends' : ∀ c ∈ name.getLast?, isBlank c = false :=
      ends_of_isSuffix (List.suffix_cons c name) ends
    rw [List.cons_append, splitPosting_cons, goesOn', ih unbroken ends']
    rfl

/-! Names in segments. -/

theorem trimmed_intercalate {mark : Char} (solid : isBlank mark = false)
    {segments : List (List Char)} (each : ∀ segment ∈ segments, Trimmed segment) :
    Trimmed ([mark].intercalate segments) := by
  have markTrimmed : Trimmed [mark] := trimmed_of_solid (List.forall_mem_singleton.mpr solid)
  induction segments with
  | nil => constructor <;> simp
  | cons segment segments ih =>
    rw [List.forall_mem_cons] at each
    cases segments with
    | nil => simpa using each.1
    | cons next segments =>
      rw [List.intercalate_cons_cons]
      exact (each.1.append_trimmed markTrimmed).append_trimmed (ih each.2)

theorem unbroken_intercalate {mark : Char} (solid : isBlank mark = false)
    {segments : List (List Char)} (each : ∀ segment ∈ segments, Unbroken segment) :
    Unbroken ([mark].intercalate segments) := by
  induction segments with
  | nil => exact ⟨List.not_mem_nil, .nil⟩
  | cons segment segments ih =>
    rw [List.forall_mem_cons] at each
    cases segments with
    | nil => simpa using each.1
    | cons next segments =>
      have noTab : mark ≠ '\t' := by
        rintro rfl
        cases solid
      have later := ih each.2
      rw [List.intercalate_cons_cons]
      constructor
      · simp [each.1.tabs, later.tabs, Ne.symm noTab]
      · refine List.IsChain.append (each.1.blanks.append (.singleton _) ?_) later.blanks ?_
        · intro _ _ d first
          rw [List.head?_cons, Option.mem_some_iff] at first
          simp [← first, solid]
        · intro c last
          rw [List.getLast?_concat, Option.mem_some_iff] at last
          simp [← last, solid]

theorem isInfix_intercalate {mark : Char} {segments : List (List Char)} {segment : List Char}
    (member : segment ∈ segments) : segment <:+: [mark].intercalate segments := by
  induction segments with
  | nil => cases member
  | cons first segments ih =>
    cases segments with
    | nil =>
      rw [List.mem_singleton.mp member, List.intercalate_singleton]
    | cons next segments =>
      rw [List.intercalate_cons_cons]
      rcases List.mem_cons.mp member with rfl | later
      · rw [List.append_assoc]
        exact (List.prefix_append _ _).isInfix
      · exact (ih later).trans (List.suffix_append _ _).isInfix

theorem not_mem_intercalate {mark c : Char} (other : c ≠ mark) {segments : List (List Char)}
    (each : ∀ segment ∈ segments, c ∉ segment) : c ∉ [mark].intercalate segments := by
  induction segments with
  | nil => exact List.not_mem_nil
  | cons segment segments ih =>
    rw [List.forall_mem_cons] at each
    cases segments with
    | nil => simpa using each.1
    | cons next segments =>
      have later := ih each.2
      rw [List.intercalate_cons_cons]
      simp [each.1, later, other]

theorem isInfix_of_mem_splitOn {mark : Char} {part : List Char}
    (member : part ∈ text.splitOn mark) : part <:+: text := by
  have inside : part <:+: [mark].intercalate (text.splitOn mark) := isInfix_intercalate member
  rwa [List.intercalate_splitOn] at inside

theorem trim_isInfix (text : List Char) : trim text <:+: text :=
  (trimEnd_isPrefix _).isInfix.trans (trimStart_isSuffix text).isInfix

theorem toList_accountName (posting : Posting) :
    posting.accountName.toList = [':'].intercalate (posting.account.map String.toList) :=
  String.toList_intercalate

theorem toList_accountOfName (name : List Char) :
    (accountOfName name).map String.toList = (name.splitOn ':').map trim := by
  simp [accountOfName]

/-- A posting as a line can give it. -/
structure Posting.Legible (posting : Posting) : Prop where
  segments : ∀ segment ∈ posting.account.map String.toList, Trimmed segment ∧ ':' ∉ segment
  named : posting.accountName.toList ≠ []
  unbroken : Unbroken posting.accountName.toList
  oneLine : '\n' ∉ posting.accountName.toList
  amounts : ∀ amounts ∈ posting.amounts, ∃ commodity number,
    amounts = Balance.single commodity number ∧ commodity.Legible ∧
      '\n' ∉ commodity.name.toList

/-- What a line of a posting consists of. -/
theorem readPosting_ok {line : List Char} {posting : Posting}
    (read : readPosting line = .ok posting) :
    posting.account = accountOfName (trim (splitPosting (trim line)).1) ∧
      (posting.amounts = none ∨ ∃ amount,
        readAmount (trim (splitPosting (trim line)).2) = .ok amount ∧
        posting.amounts = some (Balance.single (amount.commodity.getD .bare) amount.number)) := by
  simp only [readPosting] at read
  split at read
  · cases read
    exact ⟨rfl, .inl rfl⟩
  · cases result : readAmount (trim (splitPosting (trim line)).2) with
    | error => rw [result] at read; cases read
    | ok amount =>
      rw [result] at read
      cases read
      exact ⟨rfl, .inr ⟨amount, rfl, rfl⟩⟩

theorem splitPosting_of_not_blank {c : Char} (solid : isBlank c = false) (rest : List Char) :
    (splitPosting (c :: rest)).1 = c :: (splitPosting rest).1 := by
  have goesOn : endsAccount c rest = false := by
    have noTab : c ≠ '\t' := by
      rintro rfl
      cases solid
    simp [endsAccount, solid, noTab]
  rw [splitPosting_cons, goesOn]
  rfl

theorem trim_splitPosting_ne_nil (nonempty : trim text ≠ []) :
    trim (splitPosting (trim text)).1 ≠ [] := by
  have starts := (trimmed_trim text).starts
  cases first : trim text with
  | nil => exact absurd first nonempty
  | cons c rest =>
    have solid := starts c (by rw [first]; rfl)
    rw [splitPosting_of_not_blank solid, trim_cons_of_not_blank solid]
    exact List.cons_ne_nil _ _

theorem accountOfName_ne_nil (nonempty : trim text ≠ []) :
    [':'].intercalate ((accountOfName (trim text)).map String.toList) ≠ [] := by
  rw [toList_accountOfName]
  have whole : [':'].intercalate ((trim text).splitOn ':') = trim text :=
    List.intercalate_splitOn ':'
  cases segments : (trim text).splitOn ':' with
  | nil => exact absurd segments (List.splitOn_ne_nil _ _)
  | cons segment more =>
    cases more with
    | nil =>
      rw [segments, List.intercalate_singleton] at whole
      rw [List.map_singleton, List.intercalate_singleton, whole, trim_trim]
      exact nonempty
    | cons next more => simp

theorem legible_of_readPosting {line : List Char} {posting : Posting}
    (oneLine : '\n' ∉ line) (nonempty : trim line ≠ [])
    (read : readPosting line = .ok posting) : posting.Legible := by
  obtain ⟨account, amounts⟩ := readPosting_ok read
  have inside : ∀ segment ∈ posting.account.map String.toList,
      ∃ part ∈ (trim (splitPosting (trim line)).1).splitOn ':', segment = trim part := by
    intro segment member
    rw [account, toList_accountOfName] at member
    obtain ⟨part, found, same⟩ := List.mem_map.mp member
    exact ⟨part, found, same.symm⟩
  have halves := splitPosting_append (trim line)
  have name : trim (splitPosting (trim line)).1 <:+: (splitPosting (trim line)).1 := trim_isInfix _
  have first : (splitPosting (trim line)).1 <:+: line := by
    refine List.IsInfix.trans ?_ (trim_isInfix line)
    exact ⟨[], (splitPosting (trim line)).2, by simpa using halves⟩
  have second : trim (splitPosting (trim line)).2 <:+: line := by
    refine (trim_isInfix _).trans (List.IsInfix.trans ?_ (trim_isInfix line))
    exact ⟨(splitPosting (trim line)).1, [], by simpa using halves⟩
  have segmentInside : ∀ segment ∈ posting.account.map String.toList,
      segment <:+: (splitPosting (trim line)).1 := by
    intro segment member
    obtain ⟨part, found, rfl⟩ := inside segment member
    exact (trim_isInfix part).trans ((isInfix_of_mem_splitOn found).trans name)
  constructor
  · intro segment member
    obtain ⟨part, found, rfl⟩ := inside segment member
    exact ⟨trimmed_trim part,
      fun mark => not_mem_of_mem_splitOn found ((trim_isInfix part).subset mark)⟩
  · rw [toList_accountName, account]
    exact accountOfName_ne_nil (trim_splitPosting_ne_nil nonempty)
  · rw [toList_accountName]
    exact unbroken_intercalate (by decide) fun segment member =>
      (unbroken_splitPosting _).of_isInfix (segmentInside segment member)
  · rw [toList_accountName]
    exact not_mem_intercalate (by decide) fun segment member found =>
      oneLine (first.subset ((segmentInside segment member).subset found))
  · intro balance given
    rcases amounts with none | ⟨amount, amountRead, same⟩
    · rw [none] at given
      cases given
    · rw [same, Option.mem_some_iff] at given
      obtain ⟨legible, inText⟩ := Commodity.legible_of_readAmount amountRead
      exact ⟨_, _, given.symm, legible, fun found => oneLine (second.subset (inText.subset found))⟩

/-! Headers. -/

/-- A header is a date up to the first blank, and a description behind it. -/
theorem readHeader_eq (line : List Char) :
    readHeader line =
      match Date.ofText? ((trim line).takeWhile fun c => !isBlank c) with
      | some date =>
        .ok ⟨date, String.ofList (trimStart ((trim line).dropWhile fun c => !isBlank c)), []⟩
      | none =>
        .error (.invalidDate (String.ofList ((trim line).takeWhile fun c => !isBlank c))) := by
  have whole := List.takeWhile_append_dropWhile (p := fun c => !isBlank c) (l := trim line)
  simp only [readHeader, cutAt]
  cases rest : (trim line).dropWhile fun c => !isBlank c with
  | nil =>
    rw [rest, List.append_nil] at whole
    simp only [whole]
    rfl
  | cons c rest' =>
    have stopped := List.head?_dropWhile_not (fun c => !isBlank c) (trim line)
    rw [rest] at stopped
    have blank : isBlank c = true := by simpa using stopped
    have skipped : trimStart (c :: rest') = trimStart rest' := by simp [trimStart, blank]
    cases Date.ofText? ((trim line).takeWhile fun c => !isBlank c) with
    | none => rfl
    | some date =>
      have same := congrArg (fun text => Transaction.mk date (String.ofList text) []) skipped
      exact congrArg Except.ok same.symm

/-- A transaction as a journal can give it. -/
structure Transaction.Legible (transaction : Transaction) : Prop where
  date : transaction.date.HasFourDigits
  description : Trimmed transaction.description.toList
  oneLine : '\n' ∉ transaction.description.toList
  postings : ∀ posting ∈ transaction.postings, posting.Legible

theorem legible_of_readHeader {c : Char} {rest : List Char} {transaction : Transaction}
    (digit : c.isDigit = true) (oneLine : '\n' ∉ c :: rest)
    (read : readHeader (c :: rest) = .ok transaction) : transaction.Legible := by
  have solid := not_isBlank_of_isDigit digit
  have line := trim_cons_of_not_blank solid rest
  have starts : (c :: trimEnd rest).takeWhile (fun c => !isBlank c) =
      c :: (trimEnd rest).takeWhile fun c => !isBlank c := by simp [solid]
  rw [readHeader_eq, line, starts] at read
  split at read
  case h_2 => cases read
  case h_1 date dateRead =>
    rw [← Except.ok.inj read]
    have isEnd : trimStart ((c :: trimEnd rest).dropWhile fun c => !isBlank c) <:+
        trim (c :: rest) := by
      rw [line]
      exact (trimStart_isSuffix _).trans (List.dropWhile_suffix _)
    refine ⟨Date.hasFourDigits_of_ofText? digit dateRead, ?_, ?_, fun _ member => nomatch member⟩
    · rw [String.toList_ofList]
      exact ⟨head?_trimStart _, ends_of_isSuffix isEnd (trimmed_trim _).ends⟩
    · rw [String.toList_ofList]
      exact fun found => oneLine ((trim_isInfix _).subset (isEnd.subset found))

/-! Journals. -/

def Directive.transaction? : Directive → Option Transaction
  | .transaction given => some given
  | _ => none

def transactionsOf (directives : List Located) : List Transaction :=
  directives.filterMap fun located => located.directive.transaction?

theorem transactionsOf_append (first second : List Located) :
    transactionsOf (first ++ second) = transactionsOf first ++ transactionsOf second :=
  List.filterMap_append

@[simp] theorem transactionsOf_close (pending : Option OpenRecord) :
    transactionsOf (pending.toList.map OpenRecord.close) =
      pending.toList.map OpenRecord.transaction := by
  cases pending <;> rfl

theorem transactionsOf_single {directive : Directive} {source : String} {first last : Nat}
    (other : ∀ transaction, directive ≠ .transaction transaction) :
    transactionsOf [.between directive source first last] = [] := by
  cases directive with
  | transaction given => exact absurd rfl (other given)
  | price | ignoreSymbol | defaultCommodity => rfl

theorem readStart_transaction {first : Char} {line : List Char} {transaction : Transaction}
    (read : readStart first line = .ok (.transaction transaction)) :
    first.isDigit = true ∧ readHeader line = .ok transaction := by
  unfold readStart at read
  split at read
  case isTrue digit =>
    cases header : readHeader line with
    | error => rw [header] at read; cases read
    | ok given =>
      rw [header] at read
      cases read
      exact ⟨digit, rfl⟩
  case isFalse =>
    split at read
    · cases result : readPrice line <;> rw [result] at read <;> cases read
    · cases result : readIgnoredSymbol line <;> rw [result] at read <;> cases read
    · cases result : readDefaultCommodity line <;> rw [result] at read <;> cases read
    · cases read

/-- What a line does to the transaction that is open: it leaves the transactions that it ends, and
one that is open behind it. -/
inductive Passes (line : List Char) :
    Option Transaction → List Transaction → Option Transaction → Prop
  | skipped (opened : Option Transaction) (empty : line = []) : Passes line opened [] opened
  | posting (transaction : Transaction) (posting : Posting) (nonempty : line ≠ [])
      (read : readPosting line = .ok posting) :
    Passes line (some transaction) []
      (some { transaction with postings := transaction.postings ++ [posting] })
  | header (opened : Option Transaction) (transaction : Transaction) (first : Char)
      (starts : line.head? = some first) (digit : first.isDigit = true)
      (read : readHeader line = .ok transaction) :
    Passes line opened opened.toList (some transaction)
  | other (opened : Option Transaction) : Passes line opened opened.toList none

def gathered (pending : Option OpenRecord) (error : Option ParseError)
    (lines : List Source.Line) : List Transaction :=
  transactionsOf (gather pending error lines).directives

/-- A line is passed, or it is at fault and nothing is gathered from there on. -/
theorem gathered_cons (pending : Option OpenRecord) (error : Option ParseError)
    (line : Source.Line) (rest : List Source.Line) :
    gathered pending error (line :: rest) = [] ∨ ∃ closed next,
      Passes line.text (pending.map OpenRecord.transaction) closed
          (next.map OpenRecord.transaction) ∧
        gathered pending error (line :: rest) = closed ++ gathered next error rest := by
  have closes : (pending.map OpenRecord.transaction).toList =
      pending.toList.map OpenRecord.transaction := by cases pending <;> rfl
  simp only [gathered, gather]
  split
  case h_1 empty => exact .inr ⟨[], pending, .skipped _ empty, rfl⟩
  case h_2 first more text =>
    have nonempty : line.text ≠ [] := by simp [text]
    split
    case isTrue blank =>
      split
      · exact .inl rfl
      case h_2 record =>
        split
        · exact .inl rfl
        case h_2 posting read =>
          exact .inr ⟨[], some (record.add posting line.number),
            .posting record.transaction posting nonempty read, rfl⟩
    case isFalse =>
      split
      · exact .inl rfl
      case h_2 transaction read =>
        obtain ⟨digit, header⟩ := readStart_transaction read
        have starts : line.text.head? = some first := by rw [text]; rfl
        refine .inr ⟨_, some ⟨transaction, line.source, line.number, line.number⟩,
          .header _ transaction first starts digit header, ?_⟩
        rw [closes, ← transactionsOf_close]
        exact transactionsOf_append _ _
      case h_3 directive other read =>
        refine .inr ⟨_, none, .other _, ?_⟩
        have single : transactionsOf
            [.between directive line.source line.number line.number] = [] :=
          transactionsOf_single fun transaction same => other transaction same
        rw [closes, ← transactionsOf_close]
        simp only [Reading.prepend, transactionsOf_append, single, List.append_nil]

/-- A line as it is left when its comment has been taken away. -/
structure Stripped (line : List Char) : Prop where
  oneLine : '\n' ∉ line
  ends : trimEnd line = line

theorem Stripped.trim_ne_nil {line : List Char} (stripped : Stripped line)
    (nonempty : line ≠ []) : trim line ≠ [] := by
  intro nothing
  have blank : trimStart line = [] := by
    rw [← stripped.ends, trimStart_trimEnd]
    exact nothing
  have all := List.dropWhile_eq_nil_iff.mp blank
  have gone : trimEnd ([] ++ line) = [] := trimEnd_append_of_blank all
  rw [List.nil_append, stripped.ends] at gone
  exact nonempty gone

/-- A line keeps what is open legible, and ends only legible transactions. -/
theorem Passes.legible {line : List Char} {opened next : Option Transaction}
    {closed : List Transaction} (passes : Passes line opened closed next)
    (stripped : Stripped line) (legible : ∀ transaction ∈ opened, transaction.Legible) :
    (∀ transaction ∈ closed, transaction.Legible) ∧ ∀ transaction ∈ next, transaction.Legible := by
  cases passes with
  | skipped _ empty => exact ⟨fun _ member => (nomatch member), legible⟩
  | posting transaction posting nonempty read =>
    refine ⟨fun _ member => (nomatch member), fun _ given => ?_⟩
    rw [← Option.mem_some_iff.mp given]
    have before := legible transaction rfl
    refine ⟨before.date, before.description, before.oneLine, fun other member => ?_⟩
    rcases List.mem_append.mp member with early | late
    · exact before.postings other early
    · rw [List.mem_singleton.mp late]
      exact legible_of_readPosting stripped.oneLine (stripped.trim_ne_nil nonempty) read
  | header _ transaction first starts digit read =>
    refine ⟨fun other member => legible other (Option.mem_toList.mp member), fun _ given => ?_⟩
    rw [← Option.mem_some_iff.mp given]
    obtain ⟨rest, rfl⟩ : ∃ rest, line = first :: rest := ⟨_, List.eq_cons_of_mem_head? starts⟩
    exact legible_of_readHeader digit stripped.oneLine read
  | other =>
    exact ⟨fun other member => legible other (Option.mem_toList.mp member),
      fun _ given => nomatch given⟩

/-- The transactions of a pass over lines are legible if the one that is open is. -/
theorem legible_gathered (pending : Option OpenRecord) (error : Option ParseError)
    (lines : List Source.Line)
    (legible : ∀ transaction ∈ pending.map OpenRecord.transaction, transaction.Legible)
    (stripped : ∀ line ∈ lines, Stripped line.text) :
    ∀ transaction ∈ gathered pending error lines, transaction.Legible := by
  induction lines generalizing pending with
  | nil =>
    intro transaction member
    cases error with
    | some => cases member
    | none =>
      refine legible transaction ?_
      rw [gathered, gather, transactionsOf_close] at member
      cases pending with
      | none => cases member
      | some record => exact Option.mem_some_iff.mpr (List.mem_singleton.mp member).symm
  | cons line rest ih =>
    rw [List.forall_mem_cons] at stripped
    intro transaction member
    rcases gathered_cons pending error line rest with failed | ⟨closed, next, passes, step⟩
    · rw [failed] at member
      cases member
    · obtain ⟨before, behind⟩ := passes.legible stripped.1 legible
      rw [step] at member
      rcases List.mem_append.mp member with early | late
      · exact before transaction early
      · exact ih next behind stripped.2 transaction late

theorem ofFeed_eq_gather (feed : Source.Feed) :
    Reading.ofFeed feed = gather none feed.error feed.lines := by
  rw [Reading.ofFeed, RecordReader.drain_eq_remaining]
  rfl

theorem parseText_eq_gather (fs : FileSystem) (text : String) :
    parseText fs text =
      (gather none (Source.spliceText fs text.toList ".").meaningful.error
        (Source.spliceText fs text.toList ".").meaningful.lines).toExcept := by
  rw [parseText, Reading.ofText, ofFeed_eq_gather, Source.ofText_eq_spliceText]

theorem parseFile_eq_gather (fs : FileSystem) (path : String) :
    parseFile fs path = (Source.spliceFile fs [] path).mapError (⟨·, none⟩) >>= fun feed =>
      (gather none feed.meaningful.error feed.meaningful.lines).toExcept := by
  rw [parseFile, Reading.ofFile, Source.ofFile_eq_spliceFile]
  cases Source.spliceFile fs [] path with
  | error fault => rfl
  | ok feed => exact congrArg Reading.toExcept (ofFeed_eq_gather _)

theorem stripped_meaningful {feed : Source.Feed} (oneLine : feed.All fun line => '\n' ∉ line) :
    ∀ line ∈ feed.meaningful.lines, Stripped line.text := by
  intro line member
  obtain ⟨original, inside, rfl⟩ := List.mem_map.mp (List.mem_filter.mp member).1
  refine ⟨fun found => ?_, trimEnd_idem _⟩
  exact oneLine original inside ((Source.stripComment_sublist original.text).subset found)

theorem exists_of_map_eq_ok {ε α β : Type} {result : Except ε α} {view : α → β} {seen : β}
    (mapped : result.map view = .ok seen) : ∃ value, result = .ok value ∧ view value = seen := by
  cases result with
  | error => cases mapped
  | ok value => exact ⟨value, rfl, Except.ok.inj mapped⟩

theorem exists_of_bind_eq_ok {ε α β : Type} {result : Except ε α} {next : α → Except ε β} {b : β}
    (done : result >>= next = .ok b) : ∃ a, result = .ok a ∧ next a = .ok b := by
  cases result with
  | error => cases done
  | ok a => exact ⟨a, rfl, done⟩

theorem exists_of_mem_mapM {ε α β : Type} {f : α → Except ε β} {list : List α} {results : List β}
    (done : list.mapM f = .ok results) {b : β} (member : b ∈ results) :
    ∃ a ∈ list, f a = .ok b := by
  induction list generalizing results with
  | nil =>
    cases done
    cases member
  | cons a list ih =>
    rw [List.mapM_cons] at done
    obtain ⟨first, given, done⟩ := exists_of_bind_eq_ok done
    obtain ⟨later, rest, done⟩ := exists_of_bind_eq_ok done
    cases done
    rcases List.mem_cons.mp member with rfl | late
    · exact ⟨a, List.mem_cons_self, given⟩
    · obtain ⟨a', inside, given'⟩ := ih rest late
      exact ⟨a', List.mem_cons_of_mem _ inside, given'⟩

theorem toExcept_eq_ok {reading : Reading} {directives : List Located}
    (accepted : reading.toExcept = .ok directives) :
    reading.directives = directives ∧ reading.error = none := by
  unfold Reading.toExcept at accepted
  split at accepted
  case h_1 ended => exact ⟨Except.ok.inj accepted, ended⟩
  case h_2 => cases accepted

theorem legible_of_parseText {fs : FileSystem} {text : String} {directives : List Located}
    (accepted : parseText fs text = .ok directives) :
    ∀ transaction ∈ transactionsOf directives, transaction.Legible := by
  obtain ⟨given, _⟩ := toExcept_eq_ok accepted
  rw [Reading.ofText, ofFeed_eq_gather] at given
  rw [← given]
  exact legible_gathered none _ _ (fun _ none => nomatch none)
    (stripped_meaningful (Source.oneLine_ofText fs text.toList "."))

end DoubleEntry

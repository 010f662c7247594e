import DoubleEntry.Proofs.Query.Meaning
import DoubleEntry.Proofs.Query.Operands

/-! Queries as words in postfix order. A query that is folded from words has just these words, but for
the sign that stands for `payee`, and it is folded from its own words. -/

namespace DoubleEntry.Query

/-! Words by themselves, and the elements that they stand for. -/

/-- A word as the words of a query have it: the sign for `payee` is spelled out. -/
def spelledOut (word : String) : String :=
  if word = Operator.payeeSign.text then Operator.payee.text else word

/-- A word that is no operator. -/
def IsPattern (word : String) : Prop := Operator.ofText? word = none

instance : DecidablePred IsPattern :=
  fun word => inferInstanceAs (Decidable (Operator.ofText? word = none))

variable {op : Operator} {word : String}

theorem Operator.ofText?_eq_some_iff : Operator.ofText? word = some op ↔ word = op.text := by
  constructor
  · intro found
    unfold Operator.ofText? at found
    split at found <;> cases found
    all_goals rfl
  · rintro rfl
    cases op <;> rfl

theorem Postfix.ofWord_eq_operator_iff :
    Postfix.ofWord word = .operator op ↔ word = op.text := by
  rw [← Operator.ofText?_eq_some_iff, Postfix.ofWord]
  cases Operator.ofText? word <;> simp

theorem Postfix.ofWord_eq_term_iff {text : String} :
    Postfix.ofWord word = .term text ↔ IsPattern word ∧ word = text := by
  rw [Postfix.ofWord, IsPattern]
  cases Operator.ofText? word <;> simp

theorem Postfix.ofWord_text (op : Operator) : Postfix.ofWord op.text = .operator op :=
  ofWord_eq_operator_iff.mpr rfl

theorem terms_map_ofWord (given : List String) :
    Postfix.terms (given.map Postfix.ofWord) = given.filter IsPattern := by
  induction given with
  | nil => rfl
  | cons word given ih =>
    rw [Postfix.terms] at ih
    cases found : Operator.ofText? word with
    | none => simp [Postfix.terms, Postfix.ofWord, IsPattern, found, ih]
    | some op => simp [Postfix.terms, Postfix.ofWord, IsPattern, found, ih]

theorem spelledOut_of_isPattern (isPattern : IsPattern word) : spelledOut word = word := by
  have other : word ≠ Operator.payeeSign.text := by
    rintro rfl
    cases isPattern
  rw [spelledOut, if_neg other]

theorem filter_operator (op : Operator) : [op.text].filter IsPattern = [] := by
  cases op <;> rfl

theorem filter_spelledOut (given : List String) :
    (given.map spelledOut).filter IsPattern = given.filter IsPattern := by
  induction given with
  | nil => rfl
  | cons word given ih =>
    by_cases sign : word = Operator.payeeSign.text
    · subst sign
      exact ih
    · rw [List.map_cons, spelledOut, if_neg sign, List.filter_cons, List.filter_cons, ih]

section

variable [PatternEngine]

/-! The words of a query. -/

mutual

def words : Query → List String
  | account matcher => [matcher.source]
  | payee matcher => [matcher.source, Operator.payee.text]
  | both children => wordsEach children ++ [Operator.and.text]
  | either children => wordsEach children ++ [Operator.or.text]
  | not child => words child ++ [Operator.not.text]
  | all => []

def wordsEach : List Query → List String
  | [] => []
  | child :: children => words child ++ wordsEach children

end

mutual

def patterns : Query → List String
  | account matcher => [matcher.source]
  | payee matcher => [matcher.source]
  | both children => patternsEach children
  | either children => patternsEach children
  | not child => patterns child
  | all => []

def patternsEach : List Query → List String
  | [] => []
  | child :: children => patterns child ++ patternsEach children

end

variable {element : Postfix} {query first last : Query}
  {operands left next : List Query} {front back : List String}

theorem words_both (first last : Query) :
    (Query.both [first, last]).words = (first.words ++ last.words) ++ [Operator.and.text] := by
  simp [words, wordsEach]

theorem words_either (first last : Query) :
    (Query.either [first, last]).words = (first.words ++ last.words) ++ [Operator.or.text] := by
  simp [words, wordsEach]

theorem wordsEach_append (queries others : List Query) :
    wordsEach (queries ++ others) = wordsEach queries ++ wordsEach others := by
  induction queries with
  | nil => rfl
  | cons query queries ih => simp [wordsEach, ih]

/-! What a run over words does. -/

theorem takeElement_of_takes (takes : Takes element operands left) :
    takeElement operands element = .ok left := by
  cases takes with
  | term matcher operands =>
    rw [takeElement, matcher_source]
    rfl
  | and => rfl
  | or => rfl
  | not => rfl
  | payee op unary isPayee matcher operands =>
    exact applyOperator_account unary isPayee matcher operands

/-- A run over some words leads from operands to operands, the last one first. -/
def Leaves (words : List String) (operands left : List Query) : Prop :=
  (words.map Postfix.ofWord).foldlM takeElement operands = .ok left

theorem leaves_cons_iff : Leaves (word :: back) operands left ↔
    ∃ next, Takes (Postfix.ofWord word) operands next ∧ Leaves back next left := by
  constructor
  · intro leaves
    exact exists_takes leaves
  · rintro ⟨next, takes, leaves⟩
    rw [Leaves, List.map_cons, List.foldlM_cons, takeElement_of_takes takes]
    exact leaves

theorem Leaves.append (leaves : Leaves front operands next) (later : Leaves back next left) :
    Leaves (front ++ back) operands left := by
  rw [Leaves, List.map_append, List.foldlM_append, leaves]
  exact later

theorem Leaves.of_takes (takes : Takes (Postfix.ofWord word) operands left) :
    Leaves [word] operands left :=
  leaves_cons_iff.mpr ⟨left, takes, rfl⟩

theorem Leaves.of_operator (takes : Takes (.operator op) operands left) :
    Leaves [op.text] operands left :=
  .of_takes (by rwa [Postfix.ofWord_text])

theorem Leaves.of_pattern {matcher : Matcher} (isPattern : IsPattern matcher.source)
    (operands : List Query) : Leaves [matcher.source] operands (.account matcher :: operands) := by
  have element : Postfix.ofWord matcher.source = .term matcher.source :=
    Postfix.ofWord_eq_term_iff.mpr ⟨isPattern, rfl⟩
  apply Leaves.of_takes
  rw [element]
  exact .term matcher operands

/-- The words of a query leave the query on top of the operands. -/
theorem JoinsTwo.leaves (joins : JoinsTwo IsPattern query) (operands : List Query) :
    Leaves query.words operands (query :: operands) := by
  induction joins generalizing operands with
  | account matcher isPattern => exact .of_pattern isPattern operands
  | payee matcher isPattern =>
    have described := Takes.payee .payee rfl nofun matcher operands
    exact (Leaves.of_pattern isPattern operands).append (.of_operator described)
  | both _ _ ihFirst ihLast =>
    rw [words_both]
    exact ((ihFirst operands).append (ihLast _)).append (.of_operator (.and ..))
  | either _ _ ihFirst ihLast =>
    rw [words_either]
    exact ((ihFirst operands).append (ihLast _)).append (.of_operator (.or ..))
  | not _ ih => exact (ih operands).append (.of_operator (.not ..))

theorem ofPostfix_eq_ok_iff :
    ofPostfix (front.map Postfix.ofWord) = .ok query ↔ Leaves front [] [query] := by
  constructor
  · exact foldlM_of_ofPostfix
  · intro leaves
    rw [Leaves] at leaves
    rw [ofPostfix, leaves]
    rfl

/-! What the operands of a run keep of its words. -/

theorem Takes.wordsEach_reverse (takes : Takes (Postfix.ofWord word) operands left) :
    wordsEach left.reverse = wordsEach operands.reverse ++ [spelledOut word] := by
  -- the operand completed last comes first, so the words are read off the reversed list
  generalize made : Postfix.ofWord word = element at takes
  cases takes with
  | term matcher operands =>
    obtain ⟨isPattern, rfl⟩ := Postfix.ofWord_eq_term_iff.mp made
    simp [wordsEach_append, wordsEach, words, spelledOut_of_isPattern isPattern]
  | and first last operands =>
    obtain rfl := Postfix.ofWord_eq_operator_iff.mp made
    simp [wordsEach_append, wordsEach, words, spelledOut, Operator.text]
  | or first last operands =>
    obtain rfl := Postfix.ofWord_eq_operator_iff.mp made
    simp [wordsEach_append, wordsEach, words, spelledOut, Operator.text]
  | not operand operands =>
    obtain rfl := Postfix.ofWord_eq_operator_iff.mp made
    simp [wordsEach_append, wordsEach, words, spelledOut, Operator.text]
  | payee op unary isPayee matcher operands =>
    obtain rfl := Postfix.ofWord_eq_operator_iff.mp made
    have spelled : spelledOut op.text = Operator.payee.text := by
      cases op with
      | and => cases unary
      | or => cases unary
      | not => exact absurd rfl isPayee
      | payee => rfl
      | payeeSign => rfl
    simp [wordsEach_append, wordsEach, words, spelled]

/-- A run puts its words behind the words of the operands, in order and without loss. -/
theorem Leaves.wordsEach_reverse (leaves : Leaves back operands left) :
    wordsEach left.reverse = wordsEach operands.reverse ++ back.map spelledOut := by
  induction back generalizing operands with
  | nil =>
    cases leaves
    simp
  | cons word back ih =>
    obtain ⟨next, takes, later⟩ := leaves_cons_iff.mp leaves
    rw [ih later, takes.wordsEach_reverse, List.map_cons, List.append_assoc, List.singleton_append]

theorem Leaves.joinsTwo (leaves : Leaves front [] left) :
    ∀ query ∈ left, JoinsTwo IsPattern query := by
  refine joinsTwo_of_foldlM leaves (fun word member => ?_) nofun
  rw [terms_map_ofWord, List.mem_filter] at member
  exact of_decide_eq_true member.2

/-! Patterns, in a query and among words. -/

theorem JoinsTwo.filter_words (joins : JoinsTwo IsPattern query) :
    query.words.filter IsPattern = query.patterns := by
  have filter_source {matcher : Matcher} (isPattern : IsPattern matcher.source) :
      [matcher.source].filter IsPattern = [matcher.source] := by
    simp [isPattern]
  induction joins with
  | account matcher isPattern => exact filter_source isPattern
  | payee matcher isPattern =>
    rw [words, ← List.singleton_append, List.filter_append, filter_source isPattern,
      filter_operator]
    rfl
  | both _ _ ihFirst ihLast =>
    rw [words_both, List.filter_append, List.filter_append, ihFirst, ihLast, filter_operator]
    simp [patterns, patternsEach]
  | either _ _ ihFirst ihLast =>
    rw [words_either, List.filter_append, List.filter_append, ihFirst, ihLast, filter_operator]
    simp [patterns, patternsEach]
  | not _ ih =>
    rw [words, List.filter_append, ih, filter_operator, List.append_nil]
    rfl

/-! Runs over words with the same operators in the same places. -/

/-- Whether an operator for descriptions can be applied to a query. -/
def isAccount : Query → Bool
  | account _ => true
  | _ => false

theorem exists_account (plain : query.isAccount = true) : ∃ matcher, query = .account matcher := by
  cases query with
  | account matcher => exact ⟨matcher, rfl⟩
  | _ => cases plain

/-- Whether an operator can be applied depends on the kinds of the operands only. -/
theorem Takes.exists_of_kinds {others : List Query} (takes : Takes (.operator op) operands left)
    (kinds : others.map isAccount = operands.map isAccount) :
    ∃ left', Takes (.operator op) others left' ∧ left'.map isAccount = left.map isAccount := by
  generalize made : Postfix.operator op = element at takes
  cases takes with
  | term => cases made
  | and first last operands =>
    cases made
    obtain ⟨last', rest, rfl, _, kinds⟩ := List.map_eq_cons_iff.mp kinds
    obtain ⟨first', others, rfl, _, kinds⟩ := List.map_eq_cons_iff.mp kinds
    exact ⟨_, .and first' last' others, congrArg (false :: ·) kinds⟩
  | or first last operands =>
    cases made
    obtain ⟨last', rest, rfl, _, kinds⟩ := List.map_eq_cons_iff.mp kinds
    obtain ⟨first', others, rfl, _, kinds⟩ := List.map_eq_cons_iff.mp kinds
    exact ⟨_, .or first' last' others, congrArg (false :: ·) kinds⟩
  | not operand operands =>
    cases made
    obtain ⟨operand', others, rfl, _, kinds⟩ := List.map_eq_cons_iff.mp kinds
    exact ⟨_, .not operand' others, congrArg (false :: ·) kinds⟩
  | payee op unary isPayee matcher operands =>
    cases made
    obtain ⟨operand', others, rfl, plain, later⟩ := List.map_eq_cons_iff.mp kinds
    obtain ⟨matcher', rfl⟩ := exists_account plain
    exact ⟨_, .payee op unary isPayee matcher' others, congrArg (false :: ·) later⟩

/-- A word does to operands of the same kinds what another one does that is the same operator, or a
pattern where it is one. -/
theorem Takes.exists_of_ofText? {word' : String} {others : List Query}
    (takes : Takes (Postfix.ofWord word) operands left)
    (same : Operator.ofText? word' = Operator.ofText? word)
    (readable : IsPattern word' → ∃ matcher : Matcher, matcher.source = word')
    (kinds : others.map isAccount = operands.map isAccount) :
    ∃ left', Takes (Postfix.ofWord word') others left' ∧
      left'.map isAccount = left.map isAccount := by
  cases found : Operator.ofText? word with
  | some op =>
    rw [found] at same
    rw [Operator.ofText?_eq_some_iff] at found same
    rw [found, Postfix.ofWord_text] at takes
    rw [same, Postfix.ofWord_text]
    exact takes.exists_of_kinds kinds
  | none =>
    rw [found] at same
    obtain ⟨matcher, rfl⟩ := readable same
    rw [Postfix.ofWord_eq_term_iff.mpr ⟨found, rfl⟩] at takes
    rw [Postfix.ofWord_eq_term_iff.mpr ⟨same, rfl⟩]
    refine ⟨_, .term matcher others, ?_⟩
    cases takes with
    | term matcher operands => exact congrArg (true :: ·) kinds

theorem Leaves.exists_of_ofText? {given other : List String} {others : List Query}
    (leaves : Leaves given operands left)
    (same : other.map Operator.ofText? = given.map Operator.ofText?)
    (readable : ∀ word ∈ other, IsPattern word → ∃ matcher : Matcher, matcher.source = word)
    (kinds : others.map isAccount = operands.map isAccount) :
    ∃ left', Leaves other others left' ∧ left'.map isAccount = left.map isAccount := by
  induction given generalizing other operands others with
  | nil =>
    cases leaves
    rw [List.map_nil, List.map_eq_nil_iff] at same
    subst same
    exact ⟨others, rfl, kinds⟩
  | cons word given ih =>
    obtain ⟨next, takes, later⟩ := leaves_cons_iff.mp leaves
    obtain ⟨word', other, rfl, sameWord, same⟩ := List.map_eq_cons_iff.mp same
    rw [List.forall_mem_cons] at readable
    obtain ⟨next', takes', kinds'⟩ := takes.exists_of_ofText? sameWord readable.1 kinds
    obtain ⟨left', leaves', kinds''⟩ := ih later same readable.2 kinds'
    exact ⟨left', leaves_cons_iff.mpr ⟨next', takes', leaves'⟩, kinds''⟩

/-- Words in postfix order and queries stand for each other. A query that joins two operands at a time
and whose patterns are no operators is folded from its own words. Whatever words a query is folded
from, it is such a query, its words are those, with the sign for `payee` spelled out, and its patterns
are all those among them, in order. With other patterns in their places the words are folded as
well. -/
theorem ofPostfix_words_iff :
    (∀ query : Query, JoinsTwo IsPattern query →
      ofPostfix (query.words.map Postfix.ofWord) = .ok query) ∧
    (∀ (given : List String) (query : Query), ofPostfix (given.map Postfix.ofWord) = .ok query →
      JoinsTwo IsPattern query ∧ query.words = given.map spelledOut ∧
        query.patterns = given.filter IsPattern) ∧
    ∀ given other : List String, other.map Operator.ofText? = given.map Operator.ofText? →
      (∀ word ∈ other, IsPattern word → ∃ matcher : Matcher, matcher.source = word) →
      (∃ query, ofPostfix (given.map Postfix.ofWord) = .ok query) →
      ∃ query, ofPostfix (other.map Postfix.ofWord) = .ok query := by
  refine ⟨?_, ?_, ?_⟩
  · intro query joins
    exact ofPostfix_eq_ok_iff.mpr (joins.leaves [])
  · intro given query read
    have leaves := ofPostfix_eq_ok_iff.mp read
    have joins := leaves.joinsTwo query (List.mem_singleton_self query)
    have own : query.words = given.map spelledOut := by
      have kept := leaves.wordsEach_reverse
      rwa [List.reverse_singleton, wordsEach, wordsEach, List.append_nil, List.reverse_nil,
        wordsEach, List.nil_append] at kept
    refine ⟨joins, own, ?_⟩
    rw [← joins.filter_words, own, filter_spelledOut]
  · rintro given other same readable ⟨query, read⟩
    obtain ⟨left, leaves, kinds⟩ :=
      (ofPostfix_eq_ok_iff.mp read).exists_of_ofText? same readable rfl
    obtain ⟨query', rest, rfl, _, nothing⟩ := List.map_eq_cons_iff.mp kinds
    obtain rfl := List.map_eq_nil_iff.mp nothing
    exact ⟨query', ofPostfix_eq_ok_iff.mpr leaves⟩

end

/-- What Joe did not buy as food. -/
def joeWithoutFood : Query := .both [.payee Term.joe.matcher, .not (.account Term.food.matcher)]

theorem joeWithoutFood_words :
    ofPostfix (["Joe", "@", "Food", "not", "and"].map Postfix.ofWord) = .ok joeWithoutFood ∧
      joeWithoutFood.words = ["Joe", "payee", "Food", "not", "and"] ∧
      joeWithoutFood.patterns = ["Joe", "Food"] ∧
      ofPostfix (["Joe", "payee", "Food", "not", "and"].map Postfix.ofWord) = .ok joeWithoutFood ∧
      ∃ query, ofPostfix (["Food", "@", "Joe", "not", "and"].map Postfix.ofWord) = .ok query := by
  obtain ⟨folds, unfolds, others⟩ := ofPostfix_words_iff
  have read : ofPostfix (["Joe", "@", "Food", "not", "and"].map Postfix.ofWord) =
      .ok joeWithoutFood := rfl
  obtain ⟨joins, own, inOrder⟩ := unfolds _ _ read
  have again := folds joeWithoutFood joins
  have swapped : ∀ word ∈ ["Food", "@", "Joe", "not", "and"], IsPattern word →
      ∃ matcher : Matcher, matcher.source = word := by
    simp only [List.forall_mem_cons]
    exact ⟨fun _ => ⟨Term.food.matcher, rfl⟩, nofun, fun _ => ⟨Term.joe.matcher, rfl⟩, nofun, nofun,
      nofun⟩
  rw [own] at again
  exact ⟨read, own, inOrder, again, others _ _ (by decide) swapped ⟨_, read⟩⟩

end DoubleEntry.Query

import DoubleEntry.Pattern.Parser
import DoubleEntry.Proofs.Query.Operands
import DoubleEntry.Proofs.Query.Spelling
import Mathlib.Data.List.Chain

/-! Which filters are read. What is read is a sentence of the grammar as long as no unary operator
stands behind an operand; there the reader lets it pass, and looks for its operand on the left. -/

namespace DoubleEntry.Query

namespace Token

def endsOperand : Token → Bool
  | opening | operator _ => false
  | closing | term _ => true

/-- Whether a token is an operator that stands in front of its operand. -/
def isUnary : Token → Bool
  | operator op => op.isUnary
  | _ => false

/-- No unary operator stands directly behind an operand. -/
def UnaryInFront (tokens : List Token) : Prop :=
  tokens.IsChain fun token next => token.endsOperand = true → next.isUnary = false

instance (tokens : List Token) : Decidable (UnaryInFront tokens) :=
  inferInstanceAs (Decidable (tokens.IsChain _))

end Token

namespace Postfix.State

variable {state next : State} {token : Token} {tokens : List Token}

theorem due_of_afterOperand (after : state.afterOperand = true) : state.due = 1 := if_pos after

theorem due_of_not_afterOperand (before : state.afterOperand = false) : state.due = 0 := by
  simp [due, before]

theorem due_le_one (state : State) : state.due ≤ 1 := by
  unfold due
  split <;> omega

theorem afterOperand_step (taken : state.step token = some next) :
    next.afterOperand = token.endsOperand := by
  cases token with
  | opening =>
    cases taken
    rfl
  | closing =>
    obtain ⟨_, _, rest⟩ := Option.bind_eq_some_iff.mp taken
    cases rest
    rfl
  | operator op =>
    cases taken
    rfl
  | term word =>
    cases taken
    rfl

theorem afterOperand_foldlM_step (taken : tokens.foldlM step ({} : State) = some state) :
    state.afterOperand = tokens.getLast?.any Token.endsOperand := by
  induction tokens using List.reverseRecOn with
  | nil =>
    cases taken
    rfl
  | append_singleton tokens token _ =>
    obtain ⟨before, _, last⟩ := exists_last_step taken
    rw [afterOperand_step last, List.getLast?_concat, Option.any_some]

end Postfix.State

section

variable [PatternEngine]

variable {form : Form} {front tokens : List Token} {token : Token} {depth : Nat}
  {state next : Postfix.State} {op : Operator} {filter : String} {query : Query}

/-- In a sentence unary operators stand in front of their operands. -/
theorem Phrase.unaryInFront (phrase : Phrase form) :
    Token.UnaryInFront phrase.tokens ∧
      (form = .primary → ∀ token ∈ phrase.tokens.head?, token.isUnary = false) := by
  induction phrase with
  | term word => exact ⟨.singleton _, by simp [tokens, Token.isUnary]⟩
  | parens inside ih =>
    refine ⟨?_, by simp [tokens, Token.isUnary]⟩
    refine List.isChain_cons.mpr ⟨fun _ _ ends => (by cases ends), ?_⟩
    refine List.isChain_append.mpr ⟨ih.1, .singleton _, fun _ _ token last _ => ?_⟩
    cases last
    rfl
  | primary operand ih => exact ⟨ih.1, by simp⟩
  | unary op unary operand ih =>
    exact ⟨List.isChain_cons.mpr ⟨fun _ _ ends => (by cases ends), ih.1⟩, by simp⟩
  | single operand ih => exact ⟨ih.1, by simp⟩
  | binary op binary left right ihLeft ihRight =>
    refine ⟨List.isChain_append.mpr ⟨ihLeft.1, ?_, fun _ _ token first _ => ?_⟩, by simp⟩
    · exact List.isChain_cons.mpr ⟨fun _ _ ends => (by cases ends), ihRight.1⟩
    · cases first
      exact binary
  | adjacent left right ihLeft ihRight =>
    refine ⟨List.isChain_append.mpr ⟨ihLeft.1, ihRight.1, fun _ _ token first _ => ?_⟩, by simp⟩
    exact ihRight.2 rfl token first

def IsSentence (tokens : List Token) : Prop :=
  ∃ sentence : Phrase .sentence, sentence.tokens = tokens

/-- Tokens that any operand behind them completes to a sentence. -/
def Awaits (front : List Token) : Prop :=
  ∀ operand : Phrase .operand, IsSentence (front ++ operand.tokens)

/-- Tokens that any term or parenthesis behind them completes to a sentence. -/
def AwaitsPrimary (front : List Token) : Prop :=
  ∀ operand : Phrase .primary, IsSentence (front ++ operand.tokens)

theorem awaits_nil : Awaits [] := fun operand => ⟨.single operand, rfl⟩

theorem Awaits.primary (awaits : Awaits front) : AwaitsPrimary front :=
  fun operand => awaits (.primary operand)

theorem Awaits.unary (awaits : Awaits front) (unary : op.isUnary = true) :
    Awaits (front ++ [.operator op]) := by
  intro operand
  obtain ⟨sentence, same⟩ := awaits (.unary op unary operand)
  exact ⟨sentence, by rw [same, List.append_assoc]; rfl⟩

theorem IsSentence.binary (isSentence : IsSentence front) (binary : op.isUnary = false) :
    Awaits (front ++ [.operator op]) := by
  obtain ⟨left, rfl⟩ := isSentence
  intro right
  exact ⟨.binary op binary left right, by simp [Phrase.tokens]⟩

theorem IsSentence.adjacent (isSentence : IsSentence front) : AwaitsPrimary front := by
  obtain ⟨left, rfl⟩ := isSentence
  intro right
  exact ⟨.adjacent left right, rfl⟩

theorem AwaitsPrimary.term (awaits : AwaitsPrimary front) (word : Term) :
    IsSentence (front ++ [.term word.matcher.source]) := awaits (.term word)

/-- Tokens with parentheses that are still open, of which the innermost has `inner` behind it. -/
inductive Nested (inner : List Token → Prop) : Nat → List Token → Prop where
  | innermost {tokens : List Token} (holds : inner tokens) : Nested inner 0 tokens
  | group {front tokens : List Token} {depth : Nat} (awaits : AwaitsPrimary front)
      (inside : Nested inner depth tokens) : Nested inner (depth + 1) (front ++ .opening :: tokens)

namespace Nested

variable {inner inner' : List Token → Prop}

/-- A token that goes to what stands behind the innermost parenthesis. -/
theorem snoc (nested : Nested inner depth tokens)
    (step : ∀ tokens, inner tokens → inner' (tokens ++ [token])) :
    Nested inner' depth (tokens ++ [token]) := by
  induction nested with
  | innermost holds => exact .innermost (step _ holds)
  | group awaits _ ih =>
    rw [List.append_assoc, List.cons_append]
    exact .group awaits ih

theorem openGroup (nested : Nested AwaitsPrimary depth tokens) :
    Nested Awaits (depth + 1) (tokens ++ [.opening]) := by
  induction nested with
  | innermost holds => exact .group holds (.innermost awaits_nil)
  | group awaits _ ih =>
    rw [List.append_assoc, List.cons_append]
    exact .group awaits ih

theorem closeGroup (nested : Nested IsSentence (depth + 1) tokens) :
    Nested IsSentence depth (tokens ++ [.closing]) := by
  induction depth generalizing tokens with
  | zero =>
    cases nested with
    | group awaits inside =>
      cases inside with
      | innermost holds =>
        obtain ⟨sentence, rfl⟩ := holds
        rw [List.append_assoc, List.cons_append]
        exact .innermost (awaits (.parens sentence))
  | succ depth ih =>
    cases nested with
    | group awaits inside =>
      rw [List.append_assoc, List.cons_append]
      exact .group awaits (ih inside)

theorem imp (nested : Nested inner depth tokens) (weaker : ∀ tokens, inner tokens → inner' tokens) :
    Nested inner' depth tokens := by
  induction nested with
  | innermost holds => exact .innermost (weaker _ holds)
  | group awaits _ ih => exact .group awaits ih

end Nested

namespace Postfix.State

/-- What is known of the state behind some tokens. It has at most as many operands as are due; if it
has as many, the tokens are the start of a sentence. -/
structure Follows (state : State) (tokens : List Token) : Prop where
  gain_le : state.gain ≤ state.due
  nested : state.gain = state.due →
    Nested (if state.afterOperand then IsSentence else Awaits) state.openings tokens

theorem follows_start : Follows {} [] := ⟨Int.le_refl _, fun _ => .innermost awaits_nil⟩

namespace Follows

/-- An operand is complete where there is one. -/
theorem afterOperand_eq_true (follows : state.Follows tokens) (operand : 1 ≤ state.gain) :
    state.afterOperand = true := by
  have more := follows.gain_le
  by_contra before
  rw [due_of_not_afterOperand (Bool.eq_false_iff.mpr before)] at more
  omega

theorem isSentence (follows : state.Follows tokens) (operand : 1 ≤ state.gain) :
    Nested IsSentence state.openings tokens := by
  have after := follows.afterOperand_eq_true operand
  have due := due_of_afterOperand after
  have more := follows.gain_le
  have nested := follows.nested (by omega)
  rwa [after] at nested

theorem awaitsPrimary (follows : state.Follows tokens) (full : state.gain = state.due) :
    Nested AwaitsPrimary state.openings tokens := by
  have nested := follows.nested full
  split at nested
  · exact nested.imp fun _ => IsSentence.adjacent
  · exact nested.imp fun _ => Awaits.primary

theorem opening (follows : state.Follows tokens) (taken : state.step .opening = some next) :
    next.Follows (tokens ++ [.opening]) := by
  obtain ⟨gainEq, openingsEq⟩ := counts_opening taken
  have before : next.afterOperand = false := afterOperand_step taken
  have due := due_of_not_afterOperand before
  have more := follows.gain_le
  refine ⟨by omega, fun full => ?_⟩
  rw [before, openingsEq]
  exact (follows.awaitsPrimary (by omega)).openGroup

theorem term (follows : state.Follows tokens) (word : Term)
    (taken : state.step (.term word.matcher.source) = some next) :
    next.Follows (tokens ++ [.term word.matcher.source]) := by
  obtain ⟨gainEq, openingsEq⟩ := counts_term taken
  have after : next.afterOperand = true := afterOperand_step taken
  have due := due_of_afterOperand after
  have more := follows.gain_le
  refine ⟨by omega, fun full => ?_⟩
  rw [after, openingsEq]
  exact (follows.awaitsPrimary (by omega)).snoc fun _ awaits => awaits.term word

/-- A closing parenthesis that does not follow an operand leaves one operand too few. -/
theorem closing (follows : state.Follows tokens) (taken : state.step .closing = some next) :
    next.Follows (tokens ++ [.closing]) := by
  obtain ⟨gainEq, openingsEq⟩ := counts_closing taken
  have after : next.afterOperand = true := afterOperand_step taken
  have due := due_of_afterOperand after
  have more := follows.gain_le
  have most := due_le_one state
  refine ⟨by omega, fun full => ?_⟩
  have nested := follows.isSentence (by omega)
  rw [openingsEq] at nested
  rw [after]
  exact nested.closeGroup

theorem unary (follows : state.Follows tokens) (unary : op.isUnary = true)
    (inFront : state.afterOperand = false) (taken : state.step (.operator op) = some next) :
    next.Follows (tokens ++ [.operator op]) := by
  obtain ⟨gainEq, openingsEq⟩ := counts_operator taken
  have before : next.afterOperand = false := afterOperand_step taken
  have due := due_of_not_afterOperand before
  have same := due_of_not_afterOperand inFront
  have more := follows.gain_le
  rw [Operator.gain_of_isUnary unary] at gainEq
  refine ⟨by omega, fun full => ?_⟩
  have nested := follows.nested (by omega)
  rw [inFront] at nested
  rw [before, openingsEq]
  exact nested.snoc fun _ awaits => awaits.unary unary

/-- A binary operator that does not follow an operand leaves one operand too few. -/
theorem binary (follows : state.Follows tokens) (binary : op.isUnary = false)
    (taken : state.step (.operator op) = some next) : next.Follows (tokens ++ [.operator op]) := by
  obtain ⟨gainEq, openingsEq⟩ := counts_operator taken
  have before : next.afterOperand = false := afterOperand_step taken
  have due := due_of_not_afterOperand before
  have more := follows.gain_le
  have most := due_le_one state
  rw [Operator.gain_of_not_isUnary binary] at gainEq
  refine ⟨by omega, fun full => ?_⟩
  rw [before, openingsEq]
  exact (follows.isSentence (by omega)).snoc fun _ isSentence => isSentence.binary binary

theorem step (follows : state.Follows tokens)
    (inFront : state.afterOperand = true → token.isUnary = false)
    (isTerm : ∀ word, token = .term word → ∃ term : Term, term.matcher.source = word)
    (taken : state.step token = some next) : next.Follows (tokens ++ [token]) := by
  cases token with
  | opening => exact follows.opening taken
  | closing => exact follows.closing taken
  | operator op =>
    by_cases unary : op.isUnary = true
    · refine follows.unary unary (Bool.eq_false_iff.mpr fun after => ?_) taken
      exact Bool.eq_false_iff.mp (inFront after) unary
    · exact follows.binary (Bool.eq_false_iff.mpr unary) taken
  | term word =>
    obtain ⟨term, rfl⟩ := isTerm word rfl
    exact follows.term term taken

end Follows

/-- While unary operators stand in front of their operands, the state behind some terms and signs
follows them. -/
theorem follows_foldlM_step (inFront : Token.UnaryInFront tokens)
    (areTerms : ∀ word, .term word ∈ tokens → ∃ term : Term, term.matcher.source = word)
    (taken : tokens.foldlM step ({} : State) = some state) : state.Follows tokens := by
  induction tokens using List.reverseRecOn generalizing state with
  | nil =>
    cases taken
    exact follows_start
  | append_singleton tokens token ih =>
    obtain ⟨before, first, last⟩ := exists_last_step taken
    obtain ⟨firstInFront, _, between⟩ := List.isChain_append.mp inFront
    have follows := ih firstInFront (fun word member => areTerms word (by simp [member])) first
    refine follows.step (fun after => ?_) (fun word same => areTerms word (by simp [same])) last
    rw [afterOperand_foldlM_step first, Option.any_eq_true] at after
    obtain ⟨previous, isLast, ends⟩ := after
    exact between previous isLast token rfl ends

end Postfix.State

/-- A filter that is read is a sentence of the grammar if and only if no unary operator stands
directly behind an operand. -/
theorem isSentence_iff_unaryInFront (read : ofFilter filter = .ok query) :
    IsSentence (Token.ofFilter filter) ↔ Token.UnaryInFront (Token.ofFilter filter) := by
  constructor
  · rintro ⟨sentence, same⟩
    exact same ▸ sentence.unaryInFront.1
  · intro inFront
    obtain ⟨elements, order, run⟩ := exists_elements read
    have areTerms : ∀ word, .term word ∈ Token.ofFilter filter →
        ∃ term : Term, term.matcher.source = word := by
      intro word member
      have among : word ∈ Postfix.terms elements := by
        rw [Postfix.terms_ofTokens? order]
        exact Token.mem_terms_iff.mpr member
      obtain ⟨matcher, rfl⟩ := exists_matcher_of_mem_terms run word among
      exact ⟨⟨matcher, Token.isTerm_of_mem_ofFilter member⟩, rfl⟩
    obtain ⟨state, ops, taken, waits, rfl⟩ := Postfix.exists_state order
    have follows := Postfix.State.follows_foldlM_step inFront areTerms taken
    have one : state.gain = 1 := by
      have length := length_of_foldlM run
      rw [List.map_append, List.sum_append, Postfix.sum_gain_operators, ← waits] at length
      simpa [Postfix.State.gain] using length.symm
    have closed : state.openings = 0 := by
      rw [Postfix.State.openings, waits, Postfix.State.count_opening_operators]
    have nested := follows.isSentence (by omega)
    rw [closed] at nested
    cases nested with
    | innermost isSentence => exact isSentence

end

/-- An operator behind its operand is read as if it stood in front of it. -/
theorem ofFilter_operator_behind :
    ofFilter "Food not" = .ok (.not (.account ⟨"Food", _, rfl⟩)) ∧
      ¬ IsSentence (Token.ofFilter "Food not") := by
  refine ⟨rfl, ?_⟩
  rintro ⟨sentence, same⟩
  have inFront := sentence.unaryInFront.1
  rw [same] at inFront
  exact absurd inFront (by decide)

theorem isSentence_iff_unaryInFront_joe :
    (∃ query, ofFilter "not (@Joe and Food) Joe" = .ok query) ∧
      IsSentence (Token.ofFilter "not (@Joe and Food) Joe") ∧
      (∃ query, ofFilter "Joe and (or Food) not Joe" = .ok query) ∧
      ¬ IsSentence (Token.ofFilter "Joe and (or Food) not Joe") := by
  obtain ⟨first, readFirst⟩ : ∃ query, ofFilter "not (@Joe and Food) Joe" = .ok query := ⟨_, rfl⟩
  obtain ⟨second, readSecond⟩ : ∃ query, ofFilter "Joe and (or Food) not Joe" = .ok query :=
    ⟨_, rfl⟩
  refine ⟨⟨first, readFirst⟩, ?_, ⟨second, readSecond⟩, ?_⟩
  · exact (isSentence_iff_unaryInFront readFirst).mpr (by decide)
  · exact mt (isSentence_iff_unaryInFront readSecond).mp (by decide)

end DoubleEntry.Query

import DoubleEntry.Proofs.Query.Encoding
import DoubleEntry.Proofs.Query.Placement
import Mathlib.Data.List.Infix

/-! What becomes of the tokens of any filter, be they a sentence or not. There is a postfix order if
and only if the parentheses match. It has lost the parentheses and nothing else: the terms stand in
their order, and each operator is there as often as it was, besides one `or` for every place where
operands stand side by side. -/

namespace DoubleEntry.Query

namespace Token

def startsOperand : Token → Bool
  | opening | term _ => true
  | closing | operator _ => false

/-- How many operands start directly behind another one. -/
def adjoining (tokens : List Token) : Nat :=
  (tokens.zip tokens.tail).countP fun pair => pair.1.endsOperand && pair.2.startsOperand

/-- Somewhere more parentheses have been closed than opened, or some are left open. -/
def Unbalanced (tokens : List Token) : Prop :=
  (∃ front, front <+: tokens ∧ front.count .opening < front.count .closing) ∨
    tokens.count .opening ≠ tokens.count .closing

instance (tokens : List Token) : Decidable (Unbalanced tokens) :=
  decidable_of_iff
    ((∃ front ∈ tokens.inits, front.count .opening < front.count .closing) ∨
      tokens.count .opening ≠ tokens.count .closing)
    (by simp only [List.mem_inits, Unbalanced])

theorem adjoining_cons (token : Token) (tokens : List Token) :
    adjoining (token :: tokens) =
      (if token.endsOperand && tokens.head?.any startsOperand then 1 else 0) +
        adjoining tokens := by
  cases tokens with
  | nil => simp [adjoining]
  | cons next tokens => simp [adjoining, List.countP_cons, Nat.add_comm]

end Token

namespace Postfix

variable {op : Operator} {waiting : List Waiting} {state next : State} {token : Token}
  {tokens : List Token} {element : Postfix} {elements : List Postfix} {filter : String}

/-! Where parentheses do not match. -/

theorem unwind?_eq_none_iff : unwind? waiting = none ↔ waiting.count .opening = 0 := by
  induction waiting with
  | nil => simp [unwind?]
  | cons first waiting ih =>
    cases first with
    | opening => simp [unwind?]
    | operator op => cases unwound : unwind? waiting <;> simp_all [unwind?]

theorem drain?_eq_none_iff : drain? waiting = none ↔ waiting.count .opening ≠ 0 := by
  induction waiting with
  | nil => simp [drain?]
  | cons first waiting ih =>
    cases first with
    | opening => simp [drain?]
    | operator op => cases drained : drain? waiting <;> simp_all [drain?]

namespace State

theorem step_eq_none_iff : state.step token = none ↔ token = .closing ∧ state.openings = 0 := by
  cases token with
  | closing =>
    rw [openings, ← unwind?_eq_none_iff]
    cases unwound : unwind? state.waiting <;> simp [step, unwound]
  | _ => simp [step]

theorem openings_step (taken : state.step token = some next) :
    next.openings + [token].count .closing = state.openings + [token].count .opening := by
  cases token with
  | opening => simpa using (counts_opening taken).2
  | closing => simpa using (counts_closing taken).2.symm
  | operator op => simpa using (counts_operator taken).2
  | term word => simpa using (counts_term taken).2

theorem openings_foldlM_step (taken : tokens.foldlM step state = some next) :
    next.openings + tokens.count .closing = state.openings + tokens.count .opening := by
  induction tokens generalizing state with
  | nil =>
    cases taken
    rfl
  | cons token tokens ih =>
    rw [List.foldlM_cons] at taken
    obtain ⟨middle, first, rest⟩ := Option.bind_eq_some_iff.mp taken
    have here := openings_step first
    have later := ih rest
    rw [← List.singleton_append, List.count_append, List.count_append]
    omega

/-- A run fails where the first parenthesis is closed that is not open. -/
theorem foldlM_step_eq_none_iff : tokens.foldlM step state = none ↔
    ∃ front, front <+: tokens ∧
      state.openings + front.count .opening < front.count .closing := by
  induction tokens generalizing state with
  | nil => simp
  | cons token tokens ih =>
    rw [List.foldlM_cons]
    cases taken : state.step token with
    | none =>
      obtain ⟨rfl, closed⟩ := step_eq_none_iff.mp taken
      exact iff_of_true rfl ⟨[.closing], by simp, by simp [closed]⟩
    | some middle =>
      have here := openings_step taken
      refine ih.trans ?_
      constructor
      · rintro ⟨front, within, fewer⟩
        refine ⟨token :: front, List.cons_prefix_cons.mpr ⟨rfl, within⟩, ?_⟩
        rw [← List.singleton_append, List.count_append, List.count_append]
        omega
      · rintro ⟨front, within, fewer⟩
        cases front with
        | nil => simp at fewer
        | cons first front =>
          obtain ⟨rfl, inside⟩ := List.cons_prefix_cons.mp within
          refine ⟨front, inside, ?_⟩
          rw [← List.singleton_append, List.count_append, List.count_append] at fewer
          omega

end State

/-- Tokens have a postfix order unless their parentheses do not match. -/
theorem ofTokens?_eq_none_iff : ofTokens? tokens = none ↔ Token.Unbalanced tokens := by
  have closedTooOften : tokens.foldlM State.step ({} : State) = none ↔
      ∃ front, front <+: tokens ∧ front.count .opening < front.count .closing := by
    rw [State.foldlM_step_eq_none_iff]
    simp [State.openings]
  rw [Token.Unbalanced, ← closedTooOften, ofTokens?]
  cases taken : tokens.foldlM State.step ({} : State) with
  | none => simp
  | some state =>
    have counts : state.openings + tokens.count .closing = tokens.count .opening := by
      simpa [State.openings] using State.openings_foldlM_step taken
    have leftOpen :
        drain? state.waiting = none ↔ tokens.count .opening ≠ tokens.count .closing := by
      rw [drain?_eq_none_iff, ← State.openings]
      omega
    rw [or_iff_right (by simp), ← leftOpen]
    cases drained : drain? state.waiting <;> simp [drained]

/-! How often each operator is there. -/

namespace State

/-- How often an operator is in the output or waits. -/
def occurrences (state : State) (op : Operator) : Nat :=
  state.output.count (.operator op) + state.waiting.count (.operator op)

/-- How many operators are put in where the first of some tokens is taken up. -/
def joins (state : State) (tokens : List Token) : Nat :=
  if state.afterOperand && tokens.head?.any Token.startsOperand then 1 else 0

theorem count_operators (ops : List Operator) (op : Operator) :
    (ops.map Postfix.operator).count (.operator op) =
      (ops.map Waiting.operator).count (.operator op) := by
  induction ops with
  | nil => rfl
  | cons first ops ih => simp [List.count_cons, ih]

theorem occurrences_push (state : State) (pushed op : Operator) :
    (state.push pushed).occurrences op = state.occurrences op + [pushed].count op := by
  obtain ⟨ops, kept, releaseEq, same⟩ := exists_release pushed state.waiting
  simp only [push, occurrences, releaseEq]
  rw [same]
  simp only [List.count_append, List.count_cons, List.count_nil, count_operators,
    beq_iff_eq, Waiting.operator.injEq]
  omega

theorem occurrences_join (state : State) (op : Operator) :
    state.join.occurrences op =
      state.occurrences op + if op = .or ∧ state.afterOperand = true then 1 else 0 := by
  unfold join
  split
  case isTrue after =>
    rw [occurrences_push, List.count_singleton]
    simp [after, eq_comm (a := op)]
  case isFalse before => simp [before]

/-- Taking up a token adds the token, if it is an operator, and an `or` where it starts an operand
behind another one. -/
theorem occurrences_step (taken : state.step token = some next) (op : Operator) :
    next.occurrences op = state.occurrences op + [token].count (.operator op) +
      if op = .or then state.joins [token] else 0 := by
  cases token with
  | opening =>
    cases taken
    have joined := occurrences_join state op
    simp only [occurrences, joins] at joined ⊢
    simpa [Token.startsOperand, ite_and] using joined
  | closing =>
    obtain ⟨⟨released, kept⟩, unwound, rest⟩ := Option.bind_eq_some_iff.mp taken
    cases rest
    obtain ⟨ops, rfl, waits⟩ := exists_unwind unwound
    simp [occurrences, joins, Token.startsOperand, waits, count_operators]
    omega
  | operator pushed =>
    cases taken
    have pushes := occurrences_push state pushed op
    simp only [occurrences] at pushes ⊢
    simpa [joins, Token.startsOperand, List.count_cons] using pushes
  | term word =>
    cases taken
    have joined := occurrences_join state op
    simp only [occurrences, joins] at joined ⊢
    simpa [Token.startsOperand, ite_and] using joined

theorem occurrences_foldlM_step (taken : tokens.foldlM step state = some next) (op : Operator) :
    next.occurrences op = state.occurrences op + tokens.count (.operator op) +
      if op = .or then state.joins tokens + Token.adjoining tokens else 0 := by
  induction tokens generalizing state with
  | nil =>
    cases taken
    simp [joins, Token.adjoining]
  | cons token tokens ih =>
    rw [List.foldlM_cons] at taken
    obtain ⟨middle, first, rest⟩ := Option.bind_eq_some_iff.mp taken
    have here := occurrences_step first op
    have later := ih rest
    have first' : state.joins (token :: tokens) = state.joins [token] := rfl
    have behind : Token.adjoining (token :: tokens) =
        middle.joins tokens + Token.adjoining tokens := by
      rw [Token.adjoining_cons, joins, afterOperand_step first]
    rw [first', behind, ← List.singleton_append, List.count_append]
    by_cases isOr : op = .or
    · rw [if_pos isOr] at here later ⊢
      omega
    · rw [if_neg isOr] at here later ⊢
      omega

end State

/-- Each operator is there as often as in the filter, and `or` once more for every operand that
starts directly behind another one. -/
theorem count_operator_ofTokens? (order : ofTokens? tokens = some elements) (op : Operator) :
    elements.count (.operator op) =
      tokens.count (.operator op) + if op = .or then Token.adjoining tokens else 0 := by
  obtain ⟨state, ops, taken, waits, rfl⟩ := exists_state order
  have counts := State.occurrences_foldlM_step taken op
  rw [List.count_append, State.count_operators, ← waits, ← State.occurrences, counts]
  simp [State.occurrences, State.joins]

theorem mem_terms_iff {word : String} : word ∈ terms elements ↔ .term word ∈ elements := by
  rw [terms, List.mem_filterMap]
  constructor
  · rintro ⟨element, member, chosen⟩
    cases element with
    | operator op => cases chosen
    | term other =>
      cases chosen
      exact member
  · exact fun member => ⟨_, member, rfl⟩

/-- No element is written like a parenthesis, and what is written like an operator is one. -/
theorem ofWord_text_of_mem (order : ofTokens? (Token.ofFilter filter) = some elements)
    (member : element ∈ elements) :
    Token.ofWord element.text ≠ .opening ∧ Token.ofWord element.text ≠ .closing ∧
      ofWord element.text = element := by
  cases element with
  | operator op =>
    refine ⟨?_, ?_, ofWord_text op⟩
    · cases op <;> decide
    · cases op <;> decide
  | term word =>
    have among : .term word ∈ Token.ofFilter filter := by
      rw [← Token.mem_terms_iff, ← terms_ofTokens? order]
      exact mem_terms_iff.mpr member
    have isTerm := Token.isTerm_of_mem_ofFilter among
    have read : Token.ofWord word = .term word := isTerm.ofWord
    refine ⟨?_, ?_, ofWord_eq_term_iff.mpr ⟨isTerm.ofText?_eq_none, rfl⟩⟩
    · simp [text, read]
    · simp [text, read]

end Postfix

/-- Putting a filter into postfix order fails if and only if its parentheses do not match. Otherwise
no parenthesis is left, the terms stand as in the filter, and each operator is there as often as in
the filter, `or` once more for every term or opening parenthesis that directly follows a term or a
closing parenthesis. -/
theorem postfixOf_conserves (filter : String) :
    (postfixOf filter = .error (.unbalancedParens filter) ↔
      Token.Unbalanced (Token.ofFilter filter)) ∧
    (¬ Token.Unbalanced (Token.ofFilter filter) → ∃ elements,
      postfixOf filter = .ok elements ∧
      (∀ element ∈ elements, element.text ≠ "(" ∧ element.text ≠ ")" ∧
        Postfix.ofWord element.text = element) ∧
      Postfix.terms elements = Token.terms (Token.ofFilter filter) ∧
      ∀ op, elements.count (.operator op) = (Token.ofFilter filter).count (.operator op) +
        if op = .or then Token.adjoining (Token.ofFilter filter) else 0) := by
  rw [← Postfix.ofTokens?_eq_none_iff, postfixOf]
  cases order : Postfix.ofTokens? (Token.ofFilter filter) with
  | none => simp
  | some elements =>
    refine ⟨by simp, fun _ => ⟨elements, rfl, fun element member => ?_,
      Postfix.terms_ofTokens? order, Postfix.count_operator_ofTokens? order⟩⟩
    obtain ⟨noOpening, noClosing, same⟩ := Postfix.ofWord_text_of_mem order member
    refine ⟨fun written => noOpening ?_, fun written => noClosing ?_, same⟩
    · rw [written]
      rfl
    · rw [written]
      rfl

theorem postfixOf_conserves_misplaced :
    Token.Unbalanced (Token.ofFilter ") Joe (") ∧
    postfixOf ") Joe (" = .error (.unbalancedParens ") Joe (") ∧
    ¬ Token.Unbalanced (Token.ofFilter "Joe (not Food) @Joe or") ∧
    ∃ elements, postfixOf "Joe (not Food) @Joe or" = .ok elements ∧
      Postfix.operator .payeeSign ∈ elements ∧
      Postfix.ofWord "@" = .operator .payeeSign ∧
      Postfix.terms elements = ["Joe", "Food", "Joe"] ∧
      elements.count (.operator .or) = 1 + 1 := by
  have unbalanced : Token.Unbalanced (Token.ofFilter ") Joe (") := by decide
  have balanced : ¬ Token.Unbalanced (Token.ofFilter "Joe (not Food) @Joe or") := by decide
  refine ⟨unbalanced, (postfixOf_conserves _).1.mpr unbalanced, balanced, ?_⟩
  obtain ⟨elements, order, written, terms, counts⟩ := (postfixOf_conserves _).2 balanced
  have member : Postfix.operator .payeeSign ∈ elements := by
    rw [← List.count_pos_iff, counts]
    decide
  exact ⟨elements, order, member, (written _ member).2.2, terms.trans (by decide),
    (counts .or).trans (by decide)⟩

end DoubleEntry.Query

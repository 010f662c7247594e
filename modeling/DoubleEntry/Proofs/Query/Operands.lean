import DoubleEntry.Query.Filter
import Mathlib.Algebra.BigOperators.Group.List.Basic
import Mathlib.Algebra.Ring.Int.Defs
import Mathlib.Data.List.Induction

/-! What any tokens come to, be they a sentence or not. Taking them up keeps the terms in their
order and moves what waits to the output piece by piece. Folding the output leaves one operand for
each term, less one for each operator that stands between two. -/

namespace DoubleEntry.Query

/-- By how much an operator changes the number of operands. -/
def Operator.gain (op : Operator) : Int := if op.isUnary then 0 else -1

theorem Operator.gain_of_isUnary {op : Operator} (unary : op.isUnary = true) : op.gain = 0 :=
  if_pos unary

theorem Operator.gain_of_not_isUnary {op : Operator} (binary : op.isUnary = false) :
    op.gain = -1 := by
  simp [gain, binary]

def Token.terms (tokens : List Token) : List String :=
  tokens.filterMap fun
    | .term word => some word
    | _ => none

theorem Token.mem_terms_iff {word : String} {tokens : List Token} :
    word ∈ terms tokens ↔ .term word ∈ tokens := by
  rw [terms, List.mem_filterMap]
  constructor
  · rintro ⟨token, member, chosen⟩
    cases token with
    | term other =>
      cases chosen
      exact member
    | _ => cases chosen
  · exact fun member => ⟨_, member, rfl⟩

namespace Postfix

/-- By how much an element changes the number of operands. -/
def gain : Postfix → Int
  | .operator op => op.gain
  | .term _ => 1

def terms (elements : List Postfix) : List String :=
  elements.filterMap fun
    | .term word => some word
    | .operator _ => none

def Waiting.gain : Waiting → Int
  | .opening => 0
  | .operator op => op.gain

variable {op coming : Operator} {waiting kept : List Waiting} {released elements : List Postfix}
  {state next : State} {token : Token} {tokens : List Token}

@[simp] theorem terms_append (first second : List Postfix) :
    terms (first ++ second) = terms first ++ terms second := List.filterMap_append

@[simp] theorem terms_operators (ops : List Operator) : terms (ops.map .operator) = [] := by
  simp [terms, List.filterMap_map]

theorem sum_gain_operators (ops : List Operator) :
    ((ops.map Postfix.operator).map gain).sum =
      ((ops.map Waiting.operator).map Waiting.gain).sum := by
  rw [List.map_map, List.map_map]
  rfl

/-! Where operators that wait go. -/

theorem exists_release (coming : Operator) (waiting : List Waiting) :
    ∃ (ops : List Operator) (kept : List Waiting),
      release coming waiting = (ops.map .operator, kept) ∧
        waiting = ops.map .operator ++ kept := by
  induction waiting with
  | nil => exact ⟨[], [], rfl, rfl⟩
  | cons first waiting ih =>
    cases first with
    | opening => exact ⟨[], _, rfl, rfl⟩
    | operator op =>
      by_cases before : appliesBefore op coming = true
      · obtain ⟨ops, kept, releaseEq, same⟩ := ih
        exact ⟨op :: ops, kept, by simp [release, before, releaseEq], by simp [← same]⟩
      · exact ⟨[], _, by simp [release, before], rfl⟩

theorem exists_unwind (done : unwind? waiting = some (released, kept)) :
    ∃ ops : List Operator, released = ops.map .operator ∧
      waiting = ops.map .operator ++ .opening :: kept := by
  induction waiting generalizing released with
  | nil => cases done
  | cons first waiting ih =>
    cases first with
    | opening =>
      cases done
      exact ⟨[], rfl, rfl⟩
    | operator op =>
      obtain ⟨⟨inner, behind⟩, unwound, rest⟩ := Option.bind_eq_some_iff.mp done
      cases rest
      obtain ⟨ops, rfl, rfl⟩ := ih unwound
      exact ⟨op :: ops, rfl, rfl⟩

theorem exists_drain (done : drain? waiting = some released) :
    ∃ ops : List Operator, released = ops.map .operator ∧ waiting = ops.map .operator := by
  induction waiting generalizing released with
  | nil =>
    cases done
    exact ⟨[], rfl, rfl⟩
  | cons first waiting ih =>
    cases first with
    | opening => cases done
    | operator op =>
      obtain ⟨inner, drained, rest⟩ := Option.bind_eq_some_iff.mp done
      cases rest
      obtain ⟨ops, rfl, rfl⟩ := ih drained
      exact ⟨op :: ops, rfl, rfl⟩

namespace State

/-- How many operands the output leaves once all that waits is applied. -/
def gain (state : State) : Int :=
  (state.output.map Postfix.gain).sum + (state.waiting.map Waiting.gain).sum

def openings (state : State) : Nat := state.waiting.count .opening

/-- How many operands there should be more than operators between them. -/
def due (state : State) : Int := if state.afterOperand then 1 else 0

theorem count_opening_operators (ops : List Operator) :
    (ops.map Waiting.operator).count .opening = 0 := by
  rw [List.count_eq_zero, List.mem_map]
  rintro ⟨op, _, same⟩
  cases same

theorem gain_push (state : State) (op : Operator) : (state.push op).gain = state.gain + op.gain := by
  obtain ⟨ops, kept, releaseEq, same⟩ := exists_release op state.waiting
  simp only [push, gain, releaseEq]
  rw [same]
  simp only [List.map_append, List.sum_append, List.map_cons, List.sum_cons, sum_gain_operators,
    Waiting.gain]
  omega

theorem openings_push (state : State) (op : Operator) :
    (state.push op).openings = state.openings := by
  obtain ⟨ops, kept, releaseEq, same⟩ := exists_release op state.waiting
  simp only [push, openings, releaseEq]
  rw [same]
  simp [count_opening_operators]

theorem terms_push (state : State) (op : Operator) :
    terms (state.push op).output = terms state.output := by
  obtain ⟨ops, kept, releaseEq, _⟩ := exists_release op state.waiting
  simp [push, releaseEq]

theorem gain_join (state : State) : state.join.gain = state.gain - state.due := by
  unfold join due
  split
  · rw [gain_push]
    rfl
  · simp

theorem openings_join (state : State) : state.join.openings = state.openings := by
  unfold join
  split
  · exact openings_push state .or
  · rfl

theorem terms_join (state : State) : terms state.join.output = terms state.output := by
  unfold join
  split
  · exact terms_push state .or
  · rfl

/-! What one token does to the operands and to the open parentheses. -/

theorem counts_opening (taken : state.step .opening = some next) :
    next.gain = state.gain - state.due ∧ next.openings = state.openings + 1 := by
  cases taken
  rw [← gain_join, ← openings_join state]
  simp [gain, openings, Waiting.gain]

theorem counts_closing (taken : state.step .closing = some next) :
    next.gain = state.gain ∧ state.openings = next.openings + 1 := by
  obtain ⟨⟨released, kept⟩, unwound, rest⟩ := Option.bind_eq_some_iff.mp taken
  cases rest
  obtain ⟨ops, rfl, waits⟩ := exists_unwind unwound
  constructor
  · simp only [gain, waits, List.map_append, List.sum_append, sum_gain_operators, List.map_cons,
      List.sum_cons, Waiting.gain]
    omega
  · simp [openings, waits, count_opening_operators]

theorem counts_operator (taken : state.step (.operator op) = some next) :
    next.gain = state.gain + op.gain ∧ next.openings = state.openings := by
  cases taken
  exact ⟨gain_push state op, openings_push state op⟩

theorem counts_term {word : String} (taken : state.step (.term word) = some next) :
    next.gain = state.gain - state.due + 1 ∧ next.openings = state.openings := by
  cases taken
  rw [← gain_join, ← openings_join state]
  refine ⟨?_, rfl⟩
  simp only [gain, List.map_append, List.sum_append, List.map_cons, List.map_nil, List.sum_cons,
    List.sum_nil, Postfix.gain]
  omega

/-- Taking up a token puts out nothing but that token, if it is a term. -/
theorem terms_step (taken : state.step token = some next) :
    terms next.output = terms state.output ++ Token.terms [token] := by
  cases token with
  | opening =>
    cases taken
    exact (terms_join state).trans (List.append_nil _).symm
  | closing =>
    obtain ⟨⟨released, kept⟩, unwound, rest⟩ := Option.bind_eq_some_iff.mp taken
    cases rest
    obtain ⟨ops, rfl, _⟩ := exists_unwind unwound
    simp [Token.terms]
  | operator op =>
    cases taken
    exact (terms_push state op).trans (List.append_nil _).symm
  | term word =>
    cases taken
    rw [terms_append, terms_join]
    rfl

theorem exists_last_step (taken : (tokens ++ [token]).foldlM step ({} : State) = some state) :
    ∃ before, tokens.foldlM step ({} : State) = some before ∧ before.step token = some state := by
  rw [List.foldlM_append] at taken
  obtain ⟨before, first, last⟩ := Option.bind_eq_some_iff.mp taken
  simp only [List.foldlM_cons, List.foldlM_nil, bind_pure] at last
  exact ⟨before, first, last⟩

theorem terms_foldlM_step (taken : tokens.foldlM step ({} : State) = some state) :
    terms state.output = Token.terms tokens := by
  induction tokens using List.reverseRecOn generalizing state with
  | nil =>
    cases taken
    rfl
  | append_singleton tokens token ih =>
    obtain ⟨before, first, last⟩ := exists_last_step taken
    rw [terms_step last, ih first, Token.terms, Token.terms, Token.terms, List.filterMap_append]

end State

/-- The postfix order of a filter, from the state behind its last token. -/
theorem exists_state (order : ofTokens? tokens = some elements) :
    ∃ (state : State) (ops : List Operator), tokens.foldlM State.step ({} : State) = some state ∧
      state.waiting = ops.map .operator ∧ elements = state.output ++ ops.map .operator := by
  obtain ⟨state, taken, rest⟩ := Option.bind_eq_some_iff.mp order
  obtain ⟨released, drained, last⟩ := Option.bind_eq_some_iff.mp rest
  cases last
  obtain ⟨ops, rfl, waits⟩ := exists_drain drained
  exact ⟨state, ops, taken, waits, rfl⟩

theorem terms_ofTokens? (order : ofTokens? tokens = some elements) :
    terms elements = Token.terms tokens := by
  obtain ⟨state, ops, taken, _, rfl⟩ := exists_state order
  rw [terms_append, terms_operators, List.append_nil, State.terms_foldlM_step taken]

end Postfix

variable [PatternEngine]

/-- What an element makes of the operands that are complete, the last one first. -/
inductive Takes : Postfix → List Query → List Query → Prop where
  | term (matcher : Matcher) (operands : List Query) :
      Takes (.term matcher.source) operands (.account matcher :: operands)
  | and (first last : Query) (operands : List Query) :
      Takes (.operator .and) (last :: first :: operands) (.both [first, last] :: operands)
  | or (first last : Query) (operands : List Query) :
      Takes (.operator .or) (last :: first :: operands) (.either [first, last] :: operands)
  | not (operand : Query) (operands : List Query) :
      Takes (.operator .not) (operand :: operands) (.not operand :: operands)
  | payee (op : Operator) (unary : op.isUnary = true) (isPayee : op ≠ .not) (matcher : Matcher)
      (operands : List Query) :
      Takes (.operator op) (.account matcher :: operands) (.payee matcher :: operands)

variable {op : Operator} {element : Postfix} {elements : List Postfix} {query : Query}
  {operands left : List Query}

theorem takes_of_applyOperator (done : applyOperator op operands = .ok left) :
    Takes (.operator op) operands left := by
  cases operands with
  | nil => cases done
  | cons last operands =>
    cases op with
    | and =>
      cases operands with
      | nil => cases done
      | cons first operands =>
        cases done
        exact .and first last operands
    | or =>
      cases operands with
      | nil => cases done
      | cons first operands =>
        cases done
        exact .or first last operands
    | not =>
      cases done
      exact .not last operands
    | payee =>
      cases last with
      | account matcher =>
        cases done
        exact .payee .payee rfl nofun matcher operands
      | _ => cases done
    | payeeSign =>
      cases last with
      | account matcher =>
        cases done
        exact .payee .payeeSign rfl nofun matcher operands
      | _ => cases done

theorem source_of_matcher {word : String} {found : Matcher} (read : matcher word = .ok found) :
    found.source = word := by
  rw [matcher, Matcher.ofText] at read
  split at read
  · cases read
    rfl
  · cases read

theorem takes_of_takeElement (done : takeElement operands element = .ok left) :
    Takes element operands left := by
  cases element with
  | operator op => exact takes_of_applyOperator done
  | term word =>
    cases read : matcher word with
    | error error => simp [takeElement, read, bind, Except.bind] at done
    | ok found =>
      simp only [takeElement, read, bind, Except.bind, pure, Except.pure] at done
      cases done
      obtain rfl := source_of_matcher read
      exact .term found operands

theorem Takes.length (takes : Takes element operands left) :
    (left.length : Int) = operands.length + element.gain := by
  cases takes with
  | term => simp [Postfix.gain]
  | and => simp [Postfix.gain, Operator.gain, Operator.isUnary]
  | or => simp [Postfix.gain, Operator.gain, Operator.isUnary]
  | not => simp [Postfix.gain, Operator.gain, Operator.isUnary]
  | payee op unary => simp [Postfix.gain, Operator.gain, unary]

/-- A run over elements starts with what the first of them does. -/
theorem exists_takes (done : (element :: elements).foldlM takeElement operands = .ok left) :
    ∃ next, Takes element operands next ∧ elements.foldlM takeElement next = .ok left := by
  rw [List.foldlM_cons] at done
  cases first : takeElement operands element with
  | error error => simp [first, bind, Except.bind] at done
  | ok next =>
    rw [first] at done
    exact ⟨next, takes_of_takeElement first, done⟩

theorem length_of_foldlM (done : elements.foldlM takeElement operands = .ok left) :
    (left.length : Int) = operands.length + (elements.map Postfix.gain).sum := by
  induction elements generalizing operands with
  | nil =>
    cases done
    simp
  | cons element elements ih =>
    obtain ⟨next, takes, rest⟩ := exists_takes done
    rw [ih rest, takes.length, List.map_cons, List.sum_cons, add_assoc]

theorem exists_matcher_of_mem_terms (done : elements.foldlM takeElement operands = .ok left) :
    ∀ word ∈ Postfix.terms elements, ∃ matcher : Matcher, matcher.source = word := by
  induction elements generalizing operands with
  | nil => nofun
  | cons element elements ih =>
    obtain ⟨next, takes, rest⟩ := exists_takes done
    cases takes with
    | term matcher => exact List.forall_mem_cons.mpr ⟨⟨matcher, rfl⟩, ih rest⟩
    | and => exact ih rest
    | or => exact ih rest
    | not => exact ih rest
    | payee => exact ih rest

/-- A query that joins two operands at a time and whose patterns are of one kind. -/
inductive JoinsTwo (kind : String → Prop) : Query → Prop where
  | account (matcher : Matcher) (ofKind : kind matcher.source) : JoinsTwo kind (.account matcher)
  | payee (matcher : Matcher) (ofKind : kind matcher.source) : JoinsTwo kind (.payee matcher)
  | both {first last : Query} (joinsFirst : JoinsTwo kind first) (joinsLast : JoinsTwo kind last) :
      JoinsTwo kind (.both [first, last])
  | either {first last : Query} (joinsFirst : JoinsTwo kind first)
      (joinsLast : JoinsTwo kind last) : JoinsTwo kind (.either [first, last])
  | not {child : Query} (joinsChild : JoinsTwo kind child) : JoinsTwo kind (.not child)

/-- What elements with terms of a kind make of queries with patterns of that kind is again such
queries. -/
theorem Takes.joinsTwo {kind : String → Prop} (takes : Takes element operands left)
    (ofKind : ∀ word ∈ Postfix.terms [element], kind word)
    (joins : ∀ operand ∈ operands, JoinsTwo kind operand) :
    ∀ operand ∈ left, JoinsTwo kind operand := by
  cases takes with
  | term matcher =>
    have isOfKind : kind matcher.source := ofKind _ (by simp [Postfix.terms])
    exact List.forall_mem_cons.mpr ⟨.account matcher isOfKind, joins⟩
  | and first last =>
    simp only [List.forall_mem_cons] at joins ⊢
    exact ⟨.both joins.2.1 joins.1, joins.2.2⟩
  | or first last =>
    simp only [List.forall_mem_cons] at joins ⊢
    exact ⟨.either joins.2.1 joins.1, joins.2.2⟩
  | not operand =>
    simp only [List.forall_mem_cons] at joins ⊢
    exact ⟨.not joins.1, joins.2⟩
  | payee op unary isPayee matcher =>
    simp only [List.forall_mem_cons] at joins ⊢
    obtain ⟨joinsOperand, rest⟩ := joins
    cases joinsOperand with
    | account _ isOfKind => exact ⟨.payee matcher isOfKind, rest⟩

theorem joinsTwo_of_foldlM {kind : String → Prop}
    (done : elements.foldlM takeElement operands = .ok left)
    (ofKind : ∀ word ∈ Postfix.terms elements, kind word)
    (joins : ∀ operand ∈ operands, JoinsTwo kind operand) :
    ∀ operand ∈ left, JoinsTwo kind operand := by
  induction elements generalizing operands with
  | nil =>
    cases done
    exact joins
  | cons element elements ih =>
    obtain ⟨next, takes, rest⟩ := exists_takes done
    rw [← List.singleton_append, Postfix.terms_append, List.forall_mem_append] at ofKind
    exact ih rest ofKind.2 (takes.joinsTwo ofKind.1 joins)

theorem foldlM_of_ofPostfix (read : ofPostfix elements = .ok query) :
    elements.foldlM takeElement [] = .ok [query] := by
  rw [ofPostfix] at read
  cases run : elements.foldlM takeElement [] with
  | error error =>
    rw [run] at read
    cases read
  | ok operands =>
    rw [run] at read
    cases operands with
    | nil => cases read
    | cons first operands =>
      cases operands with
      | nil =>
        cases read
        rfl
      | cons => cases read

/-- A filter that is read has a postfix order that leaves its query alone. -/
theorem exists_elements {filter : String} (read : ofFilter filter = .ok query) :
    ∃ elements, Postfix.ofTokens? (Token.ofFilter filter) = some elements ∧
      elements.foldlM takeElement [] = .ok [query] := by
  rw [ofFilter, postfixOf] at read
  cases order : Postfix.ofTokens? (Token.ofFilter filter) with
  | none =>
    rw [order] at read
    cases read
  | some elements =>
    rw [order] at read
    exact ⟨elements, rfl, foldlM_of_ofPostfix read⟩

end DoubleEntry.Query

import DoubleEntry.Proofs.Query.Grammar
import Mathlib.Data.List.Basic

/-! Phrases in postfix order. While the tokens of a phrase are taken up, whatever waited before
stays below; what is put out and what waits on top of it, read one behind the other, are the phrase.
-/

namespace DoubleEntry.Query

/-- A phrase in postfix order: operators follow their operands. -/
def Phrase.elements [PatternEngine] {form : Form} : Phrase form → List Postfix
  | .term word => [.term word.matcher.source]
  | .parens inside => inside.elements
  | .primary operand => operand.elements
  | .unary op _ operand => operand.elements ++ [.operator op]
  | .single operand => operand.elements
  | .binary op _ left right => left.elements ++ right.elements ++ [.operator op]
  | .adjacent left right => left.elements ++ right.elements ++ [.operator .or]

namespace Postfix

variable {op coming : Operator} {waiting : List Waiting} {pending : List Operator}
  {output emitted : List Postfix} {token : Token}

/-- Nothing waits, or nothing since the last opening parenthesis. -/
def IsOutermost (waiting : List Waiting) : Prop := ∀ op, waiting.head? ≠ some (.operator op)

theorem isOutermost_nil : IsOutermost [] := by
  intro op waits
  cases waits

theorem isOutermost_opening (waiting : List Waiting) : IsOutermost (.opening :: waiting) := by
  intro op waits
  cases waits

theorem appliesBefore_of_isUnary (unary : coming.isUnary = true) :
    appliesBefore op coming = false := by
  have tightest : op.precedence ≤ 2 := by
    unfold Operator.precedence
    split <;> omega
  have equal : coming.precedence = 2 := by simp [Operator.precedence, unary]
  simp [appliesBefore, unary, equal, tightest]

theorem appliesBefore_of_not_isUnary (binary : coming.isUnary = false) :
    appliesBefore op coming = true := by
  have loosest : 1 ≤ op.precedence := by
    unfold Operator.precedence
    split <;> omega
  have equal : coming.precedence = 1 := by simp [Operator.precedence, binary]
  simp [appliesBefore, binary, equal, loosest]

theorem release_of_isUnary (unary : coming.isUnary = true) (waiting : List Waiting) :
    release coming waiting = ([], waiting) := by
  rcases waiting with _ | ⟨_ | op, rest⟩
  · rfl
  · rfl
  · simp [release, appliesBefore_of_isUnary unary]

/-- A binary operator releases all that waits since the last opening parenthesis. -/
theorem release_of_not_isUnary (binary : coming.isUnary = false) (outermost : IsOutermost waiting)
    (pending : List Operator) :
    release coming (pending.map .operator ++ waiting) = (pending.map .operator, waiting) := by
  induction pending with
  | nil =>
    rcases waiting with _ | ⟨_ | op, rest⟩
    · rfl
    · rfl
    · exact absurd rfl (outermost op)
  | cons op pending ih =>
    simp [release, appliesBefore_of_not_isUnary binary, ih]

theorem unwind?_append (pending : List Operator) (waiting : List Waiting) :
    unwind? (pending.map .operator ++ .opening :: waiting) =
      some (pending.map .operator, waiting) := by
  induction pending with
  | nil => rfl
  | cons op pending ih => simp [unwind?, ih]

theorem drain?_map (pending : List Operator) :
    drain? (pending.map .operator) = some (pending.map .operator) := by
  induction pending with
  | nil => rfl
  | cons op pending ih => simp [drain?, ih]

theorem step_of_isUnary (unary : op.isUnary = true) (output : List Postfix)
    (waiting : List Waiting) :
    State.step ⟨output, waiting, false⟩ (.operator op) =
      some ⟨output, .operator op :: waiting, false⟩ := by
  simp [State.step, State.push, release_of_isUnary unary]

theorem step_of_not_isUnary (binary : op.isUnary = false) (outermost : IsOutermost waiting)
    (output : List Postfix) (pending : List Operator) :
    State.step ⟨output, pending.map .operator ++ waiting, true⟩ (.operator op) =
      some ⟨output ++ pending.map .operator, .operator op :: waiting, false⟩ := by
  simp [State.step, State.push, release_of_not_isUnary binary outermost]

variable [PatternEngine] {form : Form}

/-- Behind an operand, a primary is taken up as if an `or` stood in front of it. -/
theorem foldlM_primary (operand : Phrase .primary) (output : List Postfix)
    (waiting : List Waiting) :
    operand.tokens.foldlM State.step ⟨output, waiting, true⟩ =
      (.operator .or :: operand.tokens).foldlM State.step ⟨output, waiting, true⟩ := by
  cases operand with
  | term word => simp [Phrase.tokens, State.step, State.join]
  | parens inside => simp [Phrase.tokens, State.step, State.join]

/-- When a phrase has been taken up, some of it has been put out and the rest waits, on top of what
waited before. -/
def TakenUp (phrase : Phrase form) (waiting : List Waiting) (emitted : List Postfix)
    (pending : List Operator) : Prop :=
  emitted ++ pending.map .operator = phrase.elements ∧
  ∀ output, phrase.tokens.foldlM State.step ⟨output, waiting, false⟩ =
    some ⟨output ++ emitted, pending.map .operator ++ waiting, true⟩

theorem takenUp_parens {inside : Phrase .sentence}
    (taken : TakenUp inside (.opening :: waiting) emitted pending) :
    TakenUp (.parens inside) waiting (emitted ++ pending.map .operator) [] := by
  obtain ⟨order, run⟩ := taken
  refine ⟨?_, fun output => ?_⟩
  · rw [List.map_nil, List.append_nil, order, Phrase.elements]
  · rw [Phrase.tokens, List.cons_append, List.foldlM_cons]
    simp [State.step, State.join, run, unwind?_append]

theorem takenUp_unary {operand : Phrase .operand} (unary : op.isUnary = true)
    (taken : TakenUp operand (.operator op :: waiting) emitted pending) :
    TakenUp (.unary op unary operand) waiting emitted (pending ++ [op]) := by
  obtain ⟨order, run⟩ := taken
  refine ⟨?_, fun output => ?_⟩
  · simp [Phrase.elements, ← order]
  · rw [Phrase.tokens, List.foldlM_cons, step_of_isUnary unary]
    simp [run]

/-- A binary operator and its right operand are taken up behind the left one. -/
theorem foldlM_joined {left : Phrase .sentence} {right : Phrase form} {emittedLeft : List Postfix}
    {pendingLeft : List Operator} (binary : op.isUnary = false) (outermost : IsOutermost waiting)
    (takenLeft : TakenUp left waiting emittedLeft pendingLeft)
    (takenRight : TakenUp right (.operator op :: waiting) emitted pending) (output : List Postfix) :
    (.operator op :: right.tokens).foldlM State.step
      ⟨output ++ emittedLeft, pendingLeft.map .operator ++ waiting, true⟩ =
        some ⟨output ++ (left.elements ++ emitted), (pending ++ [op]).map .operator ++ waiting,
          true⟩ := by
  rw [List.foldlM_cons, step_of_not_isUnary binary outermost]
  simp [takenRight.2, ← takenLeft.1]

theorem takenUp_binary {left : Phrase .sentence} {right : Phrase .operand}
    {emittedLeft : List Postfix} {pendingLeft : List Operator} (binary : op.isUnary = false)
    (outermost : IsOutermost waiting) (takenLeft : TakenUp left waiting emittedLeft pendingLeft)
    (takenRight : TakenUp right (.operator op :: waiting) emitted pending) :
    TakenUp (.binary op binary left right) waiting (left.elements ++ emitted)
      (pending ++ [op]) := by
  refine ⟨?_, fun output => ?_⟩
  · simp [Phrase.elements, ← takenRight.1]
  · rw [Phrase.tokens, List.foldlM_append, takenLeft.2]
    exact foldlM_joined binary outermost takenLeft takenRight output

theorem takenUp_adjacent {left : Phrase .sentence} {right : Phrase .primary}
    {emittedLeft : List Postfix} {pendingLeft : List Operator} (outermost : IsOutermost waiting)
    (takenLeft : TakenUp left waiting emittedLeft pendingLeft)
    (takenRight : TakenUp right (.operator .or :: waiting) emitted pending) :
    TakenUp (.adjacent left right) waiting (left.elements ++ emitted) (pending ++ [.or]) := by
  refine ⟨?_, fun output => ?_⟩
  · simp [Phrase.elements, ← takenRight.1]
  · rw [Phrase.tokens, List.foldlM_append, takenLeft.2]
    refine (foldlM_primary right _ _).trans ?_
    exact foldlM_joined rfl outermost takenLeft takenRight output

/-- Every phrase is taken up, a sentence where nothing waits since the last opening parenthesis. -/
theorem exists_takenUp (phrase : Phrase form)
    (outermost : form = .sentence → IsOutermost waiting) :
    ∃ emitted pending, TakenUp phrase waiting emitted pending := by
  induction phrase generalizing waiting with
  | term word => exact ⟨[.term word.matcher.source], [], rfl, fun _ => rfl⟩
  | parens inside ih =>
    obtain ⟨emitted, pending, taken⟩ := ih fun _ => isOutermost_opening waiting
    exact ⟨_, _, takenUp_parens taken⟩
  | primary operand ih => exact ih fun sentence => by cases sentence
  | unary op unary operand ih =>
    obtain ⟨emitted, pending, taken⟩ := ih fun sentence => by cases sentence
    exact ⟨_, _, takenUp_unary unary taken⟩
  | single operand ih => exact ih fun sentence => by cases sentence
  | binary op binary left right ihLeft ihRight =>
    obtain ⟨emittedLeft, pendingLeft, takenLeft⟩ := ihLeft outermost
    obtain ⟨emitted, pending, takenRight⟩ := ihRight fun sentence => by cases sentence
    exact ⟨_, _, takenUp_binary binary (outermost rfl) takenLeft takenRight⟩
  | adjacent left right ihLeft ihRight =>
    obtain ⟨emittedLeft, pendingLeft, takenLeft⟩ := ihLeft outermost
    obtain ⟨emitted, pending, takenRight⟩ := ihRight fun sentence => by cases sentence
    exact ⟨_, _, takenUp_adjacent (outermost rfl) takenLeft takenRight⟩

/-- The tokens of a filter come out in the postfix order that the grammar gives them. -/
theorem ofTokens?_tokens (sentence : Phrase .sentence) :
    ofTokens? sentence.tokens = some sentence.elements := by
  obtain ⟨emitted, pending, order, run⟩ := exists_takenUp sentence fun _ => isOutermost_nil
  rw [ofTokens?, run]
  simp [drain?_map, order]

end Postfix

end DoubleEntry.Query

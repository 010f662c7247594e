import DoubleEntry.Query.Filter

/-! The grammar of filters and the queries that it assigns. Operands are joined from left to right,
by `and` and `or` alike; where a term or a parenthesis follows an operand, `or` may be left out. -/

namespace DoubleEntry.Query

/-- A run of characters that are neither signs nor blank. -/
def Token.IsRun (word : List Char) : Prop :=
  ∀ c ∈ word, isSign c = false ∧ Text.isBlank c = false

instance (word : List Char) : Decidable (Token.IsRun word) := List.decidableBAll _ word

/-- A word that stands for itself: it has no blanks, parentheses or at signs and is no operator. -/
structure IsTerm (word : String) : Prop where
  nonempty : word.toList ≠ []
  plain : Token.IsRun word.toList
  noOperator : word ∉ ["and", "or", "not", "payee"]

variable [PatternEngine]

/-- A term whose pattern can be read. -/
structure Term where
  matcher : Matcher
  isTerm : IsTerm matcher.source

/-- What a phrase is: a whole filter, an operand of `and` and `or`, or an operand that starts with a
term or a parenthesis. -/
inductive Form where
  | sentence
  | operand
  | primary

inductive Phrase : Form → Type where
  | term (word : Term) : Phrase .primary
  | parens (inside : Phrase .sentence) : Phrase .primary
  | primary (operand : Phrase .primary) : Phrase .operand
  | unary (op : Operator) (unary : op.isUnary = true) (operand : Phrase .operand) : Phrase .operand
  | single (operand : Phrase .operand) : Phrase .sentence
  | binary (op : Operator) (binary : op.isUnary = false) (left : Phrase .sentence)
      (right : Phrase .operand) : Phrase .sentence
  | adjacent (left : Phrase .sentence) (right : Phrase .primary) : Phrase .sentence

namespace Phrase

def tokens {form : Form} : Phrase form → List Token
  | .term word => [.term word.matcher.source]
  | .parens inside => .opening :: inside.tokens ++ [.closing]
  | .primary operand => operand.tokens
  | .unary op _ operand => .operator op :: operand.tokens
  | .single operand => operand.tokens
  | .binary op _ left right => left.tokens ++ .operator op :: right.tokens
  | .adjacent left right => left.tokens ++ right.tokens

/-- The query that a phrase stands for. The operators for descriptions need an operand that stands
for a plain term, be it through parentheses. -/
inductive Denotes : {form : Form} → Phrase form → Query → Prop where
  | term (word : Term) : Denotes (.term word) (.account word.matcher)
  | parens {inside : Phrase .sentence} {query : Query} (denotes : Denotes inside query) :
      Denotes (.parens inside) query
  | primary {operand : Phrase .primary} {query : Query} (denotes : Denotes operand query) :
      Denotes (.primary operand) query
  | not {operand : Phrase .operand} {query : Query} (denotes : Denotes operand query) :
      Denotes (.unary .not rfl operand) (.not query)
  | payee {op : Operator} {unary : op.isUnary = true} {operand : Phrase .operand}
      {matcher : Matcher} (isPayee : op ≠ .not) (denotes : Denotes operand (.account matcher)) :
      Denotes (.unary op unary operand) (.payee matcher)
  | single {operand : Phrase .operand} {query : Query} (denotes : Denotes operand query) :
      Denotes (.single operand) query
  | and {left : Phrase .sentence} {right : Phrase .operand} {first last : Query}
      (denotesLeft : Denotes left first) (denotesRight : Denotes right last) :
      Denotes (.binary .and rfl left right) (.both [first, last])
  | or {left : Phrase .sentence} {right : Phrase .operand} {first last : Query}
      (denotesLeft : Denotes left first) (denotesRight : Denotes right last) :
      Denotes (.binary .or rfl left right) (.either [first, last])
  | adjacent {left : Phrase .sentence} {right : Phrase .primary} {first last : Query}
      (denotesLeft : Denotes left first) (denotesRight : Denotes right last) :
      Denotes (.adjacent left right) (.either [first, last])

/-- Somewhere in a phrase an operator for descriptions is applied to an operand that stands for a
query which is no plain term. -/
inductive Misapplies : {form : Form} → Phrase form → Query → Prop where
  | here {op : Operator} {unary : op.isUnary = true} {operand : Phrase .operand} {query : Query}
      (isPayee : op ≠ .not) (denotes : Denotes operand query)
      (noTerm : ∀ matcher, query ≠ .account matcher) : Misapplies (.unary op unary operand) query
  | parens {inside : Phrase .sentence} {query : Query} (inner : Misapplies inside query) :
      Misapplies (.parens inside) query
  | primary {operand : Phrase .primary} {query : Query} (inner : Misapplies operand query) :
      Misapplies (.primary operand) query
  | unary {op : Operator} {unary : op.isUnary = true} {operand : Phrase .operand} {query : Query}
      (inner : Misapplies operand query) : Misapplies (.unary op unary operand) query
  | single {operand : Phrase .operand} {query : Query} (inner : Misapplies operand query) :
      Misapplies (.single operand) query
  | binaryLeft {op : Operator} {binary : op.isUnary = false} {left : Phrase .sentence}
      {right : Phrase .operand} {query : Query} (inner : Misapplies left query) :
      Misapplies (.binary op binary left right) query
  | binaryRight {op : Operator} {binary : op.isUnary = false} {left : Phrase .sentence}
      {right : Phrase .operand} {query : Query} (inner : Misapplies right query) :
      Misapplies (.binary op binary left right) query
  | adjacentLeft {left : Phrase .sentence} {right : Phrase .primary} {query : Query}
      (inner : Misapplies left query) : Misapplies (.adjacent left right) query
  | adjacentRight {left : Phrase .sentence} {right : Phrase .primary} {query : Query}
      (inner : Misapplies right query) : Misapplies (.adjacent left right) query

variable {form : Form} {phrase : Phrase form} {query other : Query}

/-- The grammar assigns at most one query. -/
theorem Denotes.unique (first : Denotes phrase query) (second : Denotes phrase other) :
    query = other := by
  induction first generalizing other with
  | term word =>
    cases second
    rfl
  | parens _ ih =>
    cases second with
    | parens denotes => exact ih denotes
  | primary _ ih =>
    cases second with
    | primary denotes => exact ih denotes
  | not _ ih =>
    cases second with
    | not denotes => rw [ih denotes]
    | payee isPayee _ => exact absurd rfl isPayee
  | payee isPayee _ ih =>
    cases second with
    | not _ => exact absurd rfl isPayee
    | payee _ denotes => rw [Query.account.inj (ih denotes)]
  | single _ ih =>
    cases second with
    | single denotes => exact ih denotes
  | and _ _ ihLeft ihRight =>
    cases second with
    | and left right => rw [ihLeft left, ihRight right]
  | or _ _ ihLeft ihRight =>
    cases second with
    | or left right => rw [ihLeft left, ihRight right]
  | adjacent _ _ ihLeft ihRight =>
    cases second with
    | adjacent left right => rw [ihLeft left, ihRight right]

/-- A phrase with an operator that is misapplied stands for nothing. -/
theorem Misapplies.not_denotes (misapplies : Misapplies phrase query) : ¬ Denotes phrase other := by
  intro denotes
  induction misapplies generalizing other with
  | here isPayee operand noTerm =>
    cases denotes with
    | not _ => exact isPayee rfl
    | payee _ term => exact noTerm _ (operand.unique term)
  | parens _ ih =>
    cases denotes with
    | parens inside => exact ih inside
  | primary _ ih =>
    cases denotes with
    | primary operand => exact ih operand
  | unary _ ih =>
    cases denotes with
    | not operand => exact ih operand
    | payee _ operand => exact ih operand
  | single _ ih =>
    cases denotes with
    | single operand => exact ih operand
  | binaryLeft _ ih =>
    cases denotes with
    | and left _ => exact ih left
    | or left _ => exact ih left
  | binaryRight _ ih =>
    cases denotes with
    | and _ right => exact ih right
    | or _ right => exact ih right
  | adjacentLeft _ ih =>
    cases denotes with
    | adjacent left _ => exact ih left
  | adjacentRight _ ih =>
    cases denotes with
    | adjacent _ right => exact ih right

end Phrase

end DoubleEntry.Query

import DoubleEntry.Proofs.Query.Meaning
import DoubleEntry.Proofs.Query.Operands

/-! Queries as text. The text of a query that filters can stand for is a filter for that query: its
parentheses say which operands belong together, and no `or` is left out. -/

namespace DoubleEntry.Query

namespace Token

theorem endsWord_nil : EndsWord [] := by
  rintro _ ⟨⟩

theorem endsWord_blank (rest : List Char) : EndsWord (' ' :: rest) := by
  rintro _ ⟨⟩
  exact .inr rfl

theorem endsWord_closing (rest : List Char) : EndsWord (')' :: rest) := by
  rintro _ ⟨⟩
  exact .inl rfl

end Token

section

variable [PatternEngine]

/-- A query that a filter can stand for. Its patterns are terms, and it joins two operands at a
time. -/
inductive IsWritten : Query → Prop where
  | account (term : Term) : IsWritten (.account term.matcher)
  | payee (term : Term) : IsWritten (.payee term.matcher)
  | both {first last : Query} (writtenFirst : IsWritten first) (writtenLast : IsWritten last) :
      IsWritten (.both [first, last])
  | either {first last : Query} (writtenFirst : IsWritten first) (writtenLast : IsWritten last) :
      IsWritten (.either [first, last])
  | not {child : Query} (writtenChild : IsWritten child) : IsWritten (.not child)

variable {form : Form} {op : Operator} {query first last : Query} {operands left : List Query}
  {element : Postfix} {elements : List Postfix} {text firstText lastText : List Char}

namespace Phrase

/-- A phrase is spelled by a text in front of anything else that is spelled and ends a word. -/
def SpelledBy (phrase : Phrase form) (text : List Char) : Prop :=
  ∀ (tokens : List Token) (rest : List Char), Token.EndsWord rest → Token.Spelled tokens rest →
    Token.Spelled (phrase.tokens ++ tokens) (text ++ rest)

theorem spelledBy_term (term : Term) :
    (Phrase.term term).SpelledBy term.matcher.source.toList :=
  fun _ _ ends rest => .word term.isTerm ends rest

theorem spelledBy_unary {operand : Phrase .operand} (unary : op.isUnary = true)
    (isWord : op ≠ .payeeSign) (spelled : operand.SpelledBy text) :
    (Phrase.unary op unary operand).SpelledBy (op.text.toList ++ ' ' :: text) := by
  intro tokens rest ends spelledRest
  rw [List.append_assoc]
  exact .word isWord (Token.endsWord_blank _) (.blank rfl (spelled _ _ ends spelledRest))

theorem spelledBy_parens {left right : Phrase .operand} (binary : op.isUnary = false)
    (isWord : op ≠ .payeeSign) (spelledLeft : left.SpelledBy firstText)
    (spelledRight : right.SpelledBy lastText) :
    (Phrase.parens (.binary op binary (.single left) right)).SpelledBy
      ('(' :: firstText ++ ' ' :: op.text.toList ++ ' ' :: lastText ++ [')']) := by
  intro tokens rest _ spelledRest
  have closed : Token.Spelled (.closing :: tokens) (')' :: rest) :=
    .sign (.inr (.inl rfl)) spelledRest
  have behind := spelledRight _ _ (Token.endsWord_closing rest) closed
  have joined : Token.Spelled (.operator op :: (right.tokens ++ .closing :: tokens))
      (op.text.toList ++ ' ' :: (lastText ++ ')' :: rest)) :=
    .word isWord (Token.endsWord_blank _) (.blank rfl behind)
  have front := spelledLeft _ _ (Token.endsWord_blank _) (.blank rfl joined)
  have opened : Token.Spelled (.opening :: _) ('(' :: _) := .sign (.inl rfl) front
  simpa [Phrase.tokens] using opened

end Phrase

/-! How each kind of query is written. -/

theorem toList_text_payee (matcher : Matcher) : (Query.payee matcher).text.toList =
    Operator.payee.text.toList ++ ' ' :: matcher.source.toList := by
  simp [text, Operator.text]

theorem toList_text_not (child : Query) : (Query.not child).text.toList =
    Operator.not.text.toList ++ ' ' :: child.text.toList := by
  simp [text, Operator.text]

theorem toList_text_both (first last : Query) : (Query.both [first, last]).text.toList =
    '(' :: first.text.toList ++ ' ' :: Operator.and.text.toList ++ ' ' :: last.text.toList ++
      [')'] := by
  simp [text, joined, Operator.text]

theorem toList_text_either (first last : Query) : (Query.either [first, last]).text.toList =
    '(' :: first.text.toList ++ ' ' :: Operator.or.text.toList ++ ' ' :: last.text.toList ++
      [')'] := by
  simp [text, joined, Operator.text]

namespace IsWritten

/-- The text of a query spells an operand that stands for the query. -/
theorem exists_operand (written : query.IsWritten) :
    ∃ operand : Phrase .operand, operand.Denotes query ∧
      operand.SpelledBy query.text.toList := by
  induction written with
  | account term => exact ⟨.primary (.term term), .primary (.term term), Phrase.spelledBy_term term⟩
  | payee term =>
    refine ⟨.unary .payee rfl (.primary (.term term)),
      .payee nofun (.primary (.term term)), ?_⟩
    rw [toList_text_payee]
    exact Phrase.spelledBy_unary rfl nofun (Phrase.spelledBy_term term)
  | both _ _ ihFirst ihLast =>
    obtain ⟨left, denotesLeft, spelledLeft⟩ := ihFirst
    obtain ⟨right, denotesRight, spelledRight⟩ := ihLast
    refine ⟨.primary (.parens (.binary .and rfl (.single left) right)),
      .primary (.parens (.and (.single denotesLeft) denotesRight)), ?_⟩
    rw [toList_text_both]
    exact Phrase.spelledBy_parens rfl nofun spelledLeft spelledRight
  | either _ _ ihFirst ihLast =>
    obtain ⟨left, denotesLeft, spelledLeft⟩ := ihFirst
    obtain ⟨right, denotesRight, spelledRight⟩ := ihLast
    refine ⟨.primary (.parens (.binary .or rfl (.single left) right)),
      .primary (.parens (.or (.single denotesLeft) denotesRight)), ?_⟩
    rw [toList_text_either]
    exact Phrase.spelledBy_parens rfl nofun spelledLeft spelledRight
  | not _ ih =>
    obtain ⟨operand, denotes, spelled⟩ := ih
    refine ⟨.unary .not rfl operand, .not denotes, ?_⟩
    rw [toList_text_not]
    exact Phrase.spelledBy_unary rfl nofun spelled

theorem ofFilter_text (written : query.IsWritten) : ofFilter query.text = .ok query := by
  obtain ⟨operand, denotes, spelledBy⟩ := written.exists_operand
  have spelled : Token.Spelled (Phrase.single operand).tokens query.text.toList := by
    simpa [Phrase.tokens] using spelledBy [] [] Token.endsWord_nil .done
  rw [ofFilter_of_spelled spelled]
  exact ofPostfix_of_denotes (.single denotes)

end IsWritten

theorem IsWritten.of_joinsTwo (joins : JoinsTwo IsTerm query) : query.IsWritten := by
  induction joins with
  | account matcher isTerm => exact .account ⟨matcher, isTerm⟩
  | payee matcher isTerm => exact .payee ⟨matcher, isTerm⟩
  | both _ _ ihFirst ihLast => exact .both ihFirst ihLast
  | either _ _ ihFirst ihLast => exact .either ihFirst ihLast
  | not _ ih => exact .not ih

/-- Every query that is read from a filter is one that filters can stand for. -/
theorem isWritten_of_ofFilter {filter : String} (read : ofFilter filter = .ok query) :
    query.IsWritten := by
  obtain ⟨elements, order, run⟩ := exists_elements read
  have areTerms : ∀ word ∈ Postfix.terms elements, IsTerm word := by
    intro word member
    rw [Postfix.terms_ofTokens? order] at member
    exact Token.isTerm_of_mem_ofFilter (Token.mem_terms_iff.mp member)
  exact .of_joinsTwo (joinsTwo_of_foldlM run areTerms nofun query (List.mem_singleton_self query))

/-- A query that is read from a filter is read back from its own text, and so is every query that is
put together from terms with operands in twos. -/
theorem ofFilter_text_of_read :
    (∀ filter query, ofFilter filter = .ok query → ofFilter query.text = .ok query) ∧
      ∀ query, IsWritten query → ofFilter query.text = .ok query :=
  ⟨fun _ _ read => (isWritten_of_ofFilter read).ofFilter_text, fun _ => IsWritten.ofFilter_text⟩

end

/-- Nothing for Joe, and nothing of his but food. -/
def withoutJoe : Query :=
  .not (.either [.payee Term.joe.matcher,
    .both [.not (.account Term.food.matcher), .account Term.joe.matcher]])

theorem ofFilter_text_of_read_withoutJoe :
    ofFilter "not (@Joe (not Food and Joe))" = .ok withoutJoe ∧ withoutJoe.IsWritten ∧
      withoutJoe.text = "not (payee Joe or (not Food and Joe))" ∧
      ofFilter withoutJoe.text = .ok withoutJoe ∧
      ofFilter (Query.not withoutJoe).text = .ok (.not withoutJoe) := by
  have read : ofFilter "not (@Joe (not Food and Joe))" = .ok withoutJoe := rfl
  have written : withoutJoe.IsWritten :=
    .not (.either (.payee .joe) (.both (.not (.account .food)) (.account .joe)))
  exact ⟨read, written, rfl, ofFilter_text_of_read.1 _ _ read,
    ofFilter_text_of_read.2 _ (.not written)⟩

end DoubleEntry.Query

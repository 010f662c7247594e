import DoubleEntry.Pattern.Parser
import DoubleEntry.Proofs.Query.Shunting
import DoubleEntry.Proofs.Query.Spelling

/-! What filters mean. A filter that is written by the grammar is read as the query that the grammar
assigns to it, and is rejected only where an operator for descriptions is misapplied. -/

namespace DoubleEntry.Query

section

variable [PatternEngine]

variable {form : Form} {phrase : Phrase form} {op : Operator} {query : Query}
  {operands : List Query} {part : List Postfix} {error : FilterError} {filter : String}

theorem matcher_source (matcher : Matcher) : Query.matcher matcher.source = .ok matcher := by
  have found : Matcher.ofText matcher.source = .ok matcher := by
    unfold Matcher.ofText
    split
    · exact congrArg Except.ok (Matcher.eq_of_source_eq rfl)
    · rename_i fault failed
      rw [matcher.read] at failed
      cases failed
  rw [Query.matcher, found]
  rfl

theorem applyOperator_eq_payee (unary : op.isUnary = true) (isPayee : op ≠ .not) (query : Query)
    (operands : List Query) :
    applyOperator op (query :: operands) = applyOperator .payee (query :: operands) := by
  cases op with
  | and => cases unary
  | or => cases unary
  | not => exact absurd rfl isPayee
  | payee => rfl
  | payeeSign => rfl

theorem applyOperator_account (unary : op.isUnary = true) (isPayee : op ≠ .not)
    (matcher : Matcher) (operands : List Query) :
    applyOperator op (.account matcher :: operands) = .ok (.payee matcher :: operands) := by
  rw [applyOperator_eq_payee unary isPayee]
  rfl

theorem applyOperator_misapplied (unary : op.isUnary = true) (isPayee : op ≠ .not)
    (noTerm : ∀ matcher, query ≠ .account matcher) (operands : List Query) :
    applyOperator op (query :: operands) = .error (.invalidPayeeOperand query.text) := by
  rw [applyOperator_eq_payee unary isPayee]
  cases query with
  | account matcher => exact absurd rfl (noTerm matcher)
  | _ => rfl

namespace Phrase

/-- A phrase in postfix order leaves the query that it stands for on top of the operands. -/
theorem Denotes.foldlM_elements (denotes : Denotes phrase query) (operands : List Query) :
    phrase.elements.foldlM takeElement operands = .ok (query :: operands) := by
  induction denotes generalizing operands with
  | term word =>
    simp only [elements, List.foldlM_cons, takeElement, matcher_source]
    rfl
  | parens _ ih => exact ih operands
  | primary _ ih => exact ih operands
  | not _ ih =>
    simp only [elements, List.foldlM_append, ih]
    rfl
  | @payee op unary _ _ isPayee _ ih =>
    simp only [elements, List.foldlM_append, ih]
    exact (bind_pure _).trans (applyOperator_account unary isPayee _ operands)
  | single _ ih => exact ih operands
  | and _ _ ihLeft ihRight =>
    simp only [elements, List.foldlM_append, ihLeft, ihRight]
    rfl
  | or _ _ ihLeft ihRight =>
    simp only [elements, List.foldlM_append, ihLeft, ihRight]
    rfl
  | adjacent _ _ ihLeft ihRight =>
    simp only [elements, List.foldlM_append, ihLeft, ihRight]
    rfl

/-- Elements that are rejected with an error, whatever the operands are. -/
def Rejected (part : List Postfix) (error : FilterError) : Prop :=
  ∀ operands, part.foldlM takeElement operands = .error error

theorem Rejected.append (rejected : Rejected part error) (later : List Postfix) :
    Rejected (part ++ later) error := by
  intro operands
  rw [List.foldlM_append, rejected]
  rfl

theorem Rejected.behind (rejected : Rejected part error) (denotes : Denotes phrase query) :
    Rejected (phrase.elements ++ part) error := by
  intro operands
  rw [List.foldlM_append, denotes.foldlM_elements]
  exact rejected (query :: operands)

theorem rejected_unary {operand : Phrase .operand} (unary : op.isUnary = true)
    (isPayee : op ≠ .not) (denotes : Denotes operand query)
    (noTerm : ∀ matcher, query ≠ .account matcher) :
    Rejected (elements (.unary op unary operand)) (.invalidPayeeOperand query.text) := by
  intro operands
  simp only [elements, List.foldlM_append, denotes.foldlM_elements]
  exact (bind_pure _).trans (applyOperator_misapplied unary isPayee noTerm operands)

/-- A phrase stands for a query, or it is rejected with an operand to which an operator for
descriptions is misapplied. -/
theorem denotes_or_misapplies (phrase : Phrase form) :
    (∃ query, Denotes phrase query) ∨
      ∃ operand, Misapplies phrase operand ∧
        Rejected phrase.elements (.invalidPayeeOperand operand.text) := by
  induction phrase with
  | term word => exact .inl ⟨_, .term word⟩
  | parens inside ih =>
    rcases ih with ⟨query, denotes⟩ | ⟨operand, misapplies, rejected⟩
    · exact .inl ⟨query, .parens denotes⟩
    · exact .inr ⟨operand, .parens misapplies, rejected⟩
  | primary inside ih =>
    rcases ih with ⟨query, denotes⟩ | ⟨operand, misapplies, rejected⟩
    · exact .inl ⟨query, .primary denotes⟩
    · exact .inr ⟨operand, .primary misapplies, rejected⟩
  | unary op unary inside ih =>
    rcases ih with ⟨query, denotes⟩ | ⟨operand, misapplies, rejected⟩
    · by_cases isPayee : op = .not
      · subst isPayee
        exact .inl ⟨_, .not denotes⟩
      · by_cases isTerm : ∃ matcher, query = .account matcher
        · obtain ⟨matcher, rfl⟩ := isTerm
          exact .inl ⟨_, .payee isPayee denotes⟩
        · have noTerm : ∀ matcher, query ≠ .account matcher := not_exists.mp isTerm
          exact .inr ⟨query, .here isPayee denotes noTerm,
            rejected_unary unary isPayee denotes noTerm⟩
    · exact .inr ⟨operand, .unary misapplies, rejected.append _⟩
  | single inside ih =>
    rcases ih with ⟨query, denotes⟩ | ⟨operand, misapplies, rejected⟩
    · exact .inl ⟨query, .single denotes⟩
    · exact .inr ⟨operand, .single misapplies, rejected⟩
  | binary op binary left right ihLeft ihRight =>
    rcases ihLeft with ⟨first, denotesLeft⟩ | ⟨operand, misapplies, rejected⟩
    · rcases ihRight with ⟨last, denotesRight⟩ | ⟨operand, misapplies, rejected⟩
      · cases op with
        | and => exact .inl ⟨_, .and denotesLeft denotesRight⟩
        | or => exact .inl ⟨_, .or denotesLeft denotesRight⟩
        | not => cases binary
        | payee => cases binary
        | payeeSign => cases binary
      · exact .inr ⟨operand, .binaryRight misapplies, (rejected.behind denotesLeft).append _⟩
    · exact .inr ⟨operand, .binaryLeft misapplies, (rejected.append _).append _⟩
  | adjacent left right ihLeft ihRight =>
    rcases ihLeft with ⟨first, denotesLeft⟩ | ⟨operand, misapplies, rejected⟩
    · rcases ihRight with ⟨last, denotesRight⟩ | ⟨operand, misapplies, rejected⟩
      · exact .inl ⟨_, .adjacent denotesLeft denotesRight⟩
      · exact .inr ⟨operand, .adjacentRight misapplies, (rejected.behind denotesLeft).append _⟩
    · exact .inr ⟨operand, .adjacentLeft misapplies, (rejected.append _).append _⟩

end Phrase

/-- However a filter of the grammar is spelled, it is read in its postfix order. -/
theorem ofFilter_of_spelled {sentence : Phrase .sentence}
    (spelled : Token.Spelled sentence.tokens filter.toList) :
    ofFilter filter = ofPostfix sentence.elements := by
  have order : postfixOf filter = .ok sentence.elements := by
    rw [postfixOf, Token.ofFilter_of_spelled spelled, Postfix.ofTokens?_tokens]
  rw [ofFilter, order]
  rfl

theorem ofPostfix_of_denotes {sentence : Phrase .sentence} (denotes : sentence.Denotes query) :
    ofPostfix sentence.elements = .ok query := by
  rw [ofPostfix, denotes.foldlM_elements]
  rfl

/-- However a filter of the grammar is spelled, it is read as the query that the grammar assigns to
it. It is rejected exactly if an operator for descriptions is applied to an operand that stands for
no plain term, and then with such an operand. -/
theorem ofFilter_eq_ok_iff_denotes {sentence : Phrase .sentence}
    (spelled : Token.Spelled sentence.tokens filter.toList) :
    (∀ query, ofFilter filter = .ok query ↔ sentence.Denotes query) ∧
    ((∃ operand, ofFilter filter = .error (.invalidPayeeOperand operand)) ↔
      ∃ operand, sentence.Misapplies operand) ∧
    ∀ error, ofFilter filter = .error error →
      ∃ operand, sentence.Misapplies operand ∧ error = .invalidPayeeOperand operand.text := by
  rw [ofFilter_of_spelled spelled]
  rcases sentence.denotes_or_misapplies with ⟨query, denotes⟩ | ⟨operand, misapplies, rejected⟩
  · have read := ofPostfix_of_denotes denotes
    refine ⟨fun other => ⟨fun same => ?_, ofPostfix_of_denotes⟩, ⟨?_, ?_⟩, fun error failed => ?_⟩
    · rw [← Except.ok.inj (read.symm.trans same)]
      exact denotes
    · rintro ⟨operand, failed⟩
      cases read.symm.trans failed
    · rintro ⟨operand, misapplies⟩
      exact absurd denotes misapplies.not_denotes
    · cases read.symm.trans failed
  · have failed : ofPostfix sentence.elements = .error (.invalidPayeeOperand operand.text) := by
      rw [ofPostfix, rejected]
      rfl
    refine ⟨fun query => ⟨fun read => ?_, fun denotes => ?_⟩, ⟨?_, ?_⟩, fun error same => ?_⟩
    · cases failed.symm.trans read
    · exact absurd denotes misapplies.not_denotes
    · exact fun _ => ⟨operand, misapplies⟩
    · exact fun _ => ⟨operand.text, failed⟩
    · exact ⟨operand, misapplies, Except.error.inj (same.symm.trans failed)⟩

end

def Term.joe : Term := ⟨⟨"Joe", _, rfl⟩, by decide, by decide, by decide⟩

def Term.food : Term := ⟨⟨"Food", _, rfl⟩, by decide, by decide, by decide⟩

/-- The phrase `not (@Joe and Food) Joe`. -/
def Phrase.accepted : Phrase .sentence :=
  .adjacent
    (.single (.unary .not rfl (.primary (.parens
      (.binary .and rfl (.single (.unary .payeeSign rfl (.primary (.term .joe))))
        (.primary (.term .food)))))))
    (.term .joe)

/-- The phrase `payee (Joe Food)`. -/
def Phrase.rejected : Phrase .sentence :=
  .single (.unary .payee rfl (.primary (.parens
    (.adjacent (.single (.primary (.term .joe))) (.term .food)))))

theorem ofFilter_accepted_rejected :
    ofFilter "not (@Joe and Food) Joe" =
      .ok (.either [.not (.both [.payee Term.joe.matcher, .account Term.food.matcher]),
        .account Term.joe.matcher]) ∧
    ∃ operand, ofFilter "payee (Joe Food)" = .error (.invalidPayeeOperand operand) := by
  have accepted : Token.Spelled Phrase.accepted.tokens "not (@Joe and Food) Joe".toList := by
    refine .word nofun (by decide) (.blank rfl (.sign (.inl rfl) (.sign (.inr (.inr rfl)) ?_)))
    refine .word Term.joe.isTerm (by decide) (.blank rfl ?_)
    refine .word nofun (by decide) (.blank rfl ?_)
    refine .word Term.food.isTerm (by decide) (.sign (.inr (.inl rfl)) (.blank rfl ?_))
    exact .word Term.joe.isTerm (by decide) .done
  have rejected : Token.Spelled Phrase.rejected.tokens "payee (Joe Food)".toList := by
    refine .word nofun (by decide) (.blank rfl (.sign (.inl rfl) ?_))
    refine .word Term.joe.isTerm (by decide) (.blank rfl ?_)
    exact .word Term.food.isTerm (by decide) (.sign (.inr (.inl rfl)) .done)
  have denotes : Phrase.accepted.Denotes _ :=
    .adjacent (.single (.not (.primary (.parens
      (.and (.single (.payee nofun (.primary (.term .joe)))) (.primary (.term .food)))))))
      (.term .joe)
  have misapplies : Phrase.rejected.Misapplies _ :=
    .single (.here nofun (.primary (.parens
      (.adjacent (.single (.primary (.term .joe))) (.term .food)))) nofun)
  exact ⟨((ofFilter_eq_ok_iff_denotes accepted).1 _).mpr denotes,
    (ofFilter_eq_ok_iff_denotes rejected).2.1.mpr ⟨_, misapplies⟩⟩

end DoubleEntry.Query

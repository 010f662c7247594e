import DoubleEntry.Proofs.Query.Grammar

/-! How tokens may be spelled, and that the spelling is read back. Blanks may stand anywhere; a word
must end before the next one starts, while parentheses and at signs end by themselves. The tokens of
any text are such signs and words. -/

namespace DoubleEntry.Query

namespace Token

def IsSignToken (token : Token) : Prop :=
  token = .opening ∨ token = .closing ∨ token = .operator .payeeSign

def IsWordToken : Token → Prop
  | opening => False
  | closing => False
  | operator op => op ≠ .payeeSign
  | term word => IsTerm word

/-- A text in front of which a word ends. -/
def EndsWord (text : List Char) : Prop :=
  ∀ c ∈ text.head?, isSign c = true ∨ Text.isBlank c = true

instance (text : List Char) : Decidable (EndsWord text) :=
  Option.decidableForallMem text.head?

/-- A text that spells some tokens in order. -/
inductive Spelled : List Token → List Char → Prop where
  | done : Spelled [] []
  | blank {tokens : List Token} {text : List Char} {c : Char} (isBlank : Text.isBlank c = true)
      (rest : Spelled tokens text) : Spelled tokens (c :: text)
  | sign {token : Token} {tokens : List Token} {text : List Char} (isSign : IsSignToken token)
      (rest : Spelled tokens text) : Spelled (token :: tokens) (token.text.toList ++ text)
  | word {token : Token} {tokens : List Token} {text : List Char} (isWord : IsWordToken token)
      (ends : EndsWord text) (rest : Spelled tokens text) :
      Spelled (token :: tokens) (token.text.toList ++ text)

variable {c : Char} {text word : List Char} {token : Token} {tokens : List Token}

theorem not_isSign_of_isBlank (isBlank : Text.isBlank c = true) : isSign c = false := by
  cases found : isSign c with
  | false => rfl
  | true =>
    simp only [isSign, Bool.or_eq_true, beq_iff_eq] at found
    rcases found with (rfl | rfl) | rfl
    · exact absurd isBlank (by decide)
    · exact absurd isBlank (by decide)
    · exact absurd isBlank (by decide)

theorem wordsOf_blank (isBlank : Text.isBlank c = true) : wordsOf (c :: text) = wordsOf text := by
  simp [wordsOf, splitRun, not_isSign_of_isBlank isBlank, isBlank]

theorem wordsOf_sign (sign : isSign c = true) : wordsOf (c :: text) = [c] :: wordsOf text := by
  simp [wordsOf, splitRun, sign]

/-- Where a word ends, no run of plain characters starts. -/
theorem splitRun_of_endsWord (ends : EndsWord text) : splitRun text = ([], wordsOf text) := by
  cases text with
  | nil => rfl
  | cons c text =>
    rcases ends c rfl with sign | isBlank
    · simp [wordsOf, splitRun, sign]
    · simp [wordsOf, splitRun, not_isSign_of_isBlank isBlank, isBlank]

theorem splitRun_append (run : IsRun word) (ends : EndsWord text) :
    splitRun (word ++ text) = (word, wordsOf text) := by
  induction word with
  | nil => exact splitRun_of_endsWord ends
  | cons c word ih =>
    obtain ⟨noSign, notBlank⟩ := run c List.mem_cons_self
    have later : IsRun word := fun other member => run other (List.mem_cons_of_mem c member)
    rw [List.cons_append, splitRun, ih later]
    simp [noSign, notBlank]

theorem wordsOf_append (run : IsRun word) (nonempty : word ≠ []) (ends : EndsWord text) :
    wordsOf (word ++ text) = word :: wordsOf text := by
  rw [wordsOf, splitRun_append run ends]
  simp [nonempty]

theorem wordsOf_signToken (isSign : IsSignToken token) :
    wordsOf (token.text.toList ++ text) = token.text.toList :: wordsOf text := by
  rcases isSign with rfl | rfl | rfl
  · exact wordsOf_sign rfl
  · exact wordsOf_sign rfl
  · exact wordsOf_sign rfl

theorem isRun_of_isWordToken (isWord : IsWordToken token) :
    IsRun token.text.toList ∧ token.text.toList ≠ [] := by
  cases token with
  | opening => cases isWord
  | closing => cases isWord
  | term word => exact ⟨isWord.plain, isWord.nonempty⟩
  | operator op =>
    cases op with
    | payeeSign => exact absurd rfl isWord
    | and => exact ⟨by decide, by decide⟩
    | or => exact ⟨by decide, by decide⟩
    | not => exact ⟨by decide, by decide⟩
    | payee => exact ⟨by decide, by decide⟩

end Token

variable {word : String} {token : Token} {tokens : List Token} {text : List Char}

namespace IsTerm

theorem ne_singleton (isTerm : IsTerm word) (sign : Char) (isSign : Token.isSign sign = true) :
    word ≠ String.singleton sign := by
  rintro rfl
  have plain := (isTerm.plain sign (by simp)).1
  rw [isSign] at plain
  cases plain

theorem ofText?_eq_none (isTerm : IsTerm word) : Operator.ofText? word = none := by
  have noOperator := isTerm.noOperator
  simp only [List.mem_cons, List.not_mem_nil, or_false, not_or] at noOperator
  obtain ⟨notAnd, notOr, notNot, notPayee⟩ := noOperator
  unfold Operator.ofText?
  split
  · exact absurd rfl notAnd
  · exact absurd rfl notOr
  · exact absurd rfl notNot
  · exact absurd rfl notPayee
  · exact absurd rfl (isTerm.ne_singleton '@' rfl)
  · rfl

theorem ofWord (isTerm : IsTerm word) : Token.ofWord word = .term word := by
  unfold Token.ofWord
  split
  · exact absurd rfl (isTerm.ne_singleton '(' rfl)
  · exact absurd rfl (isTerm.ne_singleton ')' rfl)
  · rw [isTerm.ofText?_eq_none]

end IsTerm

namespace Token

theorem ofWord_text_of_isSignToken (isSign : IsSignToken token) : ofWord token.text = token := by
  rcases isSign with rfl | rfl | rfl
  · rfl
  · rfl
  · rfl

theorem ofWord_text_of_isWordToken (isWord : IsWordToken token) : ofWord token.text = token := by
  cases token with
  | opening => rfl
  | closing => rfl
  | operator op => cases op <;> rfl
  | term word => exact IsTerm.ofWord isWord

theorem map_ofWord_wordsOf (spelled : Spelled tokens text) :
    (wordsOf text).map (fun word => ofWord (String.ofList word)) = tokens := by
  induction spelled with
  | done => rfl
  | blank isBlank _ ih => rw [wordsOf_blank isBlank, ih]
  | sign isSign _ ih =>
    rw [wordsOf_signToken isSign, List.map_cons, ih, String.ofList_toList,
      ofWord_text_of_isSignToken isSign]
  | word isWord ends _ ih =>
    obtain ⟨run, nonempty⟩ := isRun_of_isWordToken isWord
    rw [wordsOf_append run nonempty ends, List.map_cons, ih, String.ofList_toList,
      ofWord_text_of_isWordToken isWord]

/-- However some tokens are spelled, they are read back. -/
theorem ofFilter_of_spelled {filter : String} (spelled : Spelled tokens filter.toList) :
    ofFilter filter = tokens :=
  map_ofWord_wordsOf spelled

theorem exists_spelled (known : ∀ token ∈ tokens, IsSignToken token ∨ IsWordToken token) :
    ∃ filter : String, Spelled tokens filter.toList := by
  suffices ∃ text, Spelled tokens text by
    obtain ⟨text, spelled⟩ := this
    exact ⟨String.ofList text, by rwa [String.toList_ofList]⟩
  induction tokens with
  | nil => exact ⟨[], .done⟩
  | cons token tokens ih =>
    obtain ⟨text, spelled⟩ := ih fun other member => known other (List.mem_cons_of_mem token member)
    have spaced : Spelled tokens (' ' :: text) := .blank (by decide) spelled
    rcases known token List.mem_cons_self with isSign | isWord
    · exact ⟨_, .sign isSign spaced⟩
    · refine ⟨_, .word isWord ?_ spaced⟩
      rintro _ ⟨⟩
      exact .inr (by decide)

theorem known_operator (op : Operator) :
    (Token.operator op).IsSignToken ∨ (Token.operator op).IsWordToken := by
  by_cases sign : op = .payeeSign
  · exact .inl (.inr (.inr (congrArg Token.operator sign)))
  · exact .inr sign

/-- What a text is cut into: single signs, and runs of plain characters. -/
def IsPiece (word : List Char) : Prop :=
  (∃ c, isSign c = true ∧ word = [c]) ∨ IsRun word ∧ word ≠ []

theorem isPiece_of_splitRun (text : List Char) :
    IsRun (splitRun text).1 ∧ ∀ word ∈ (splitRun text).2, IsPiece word := by
  induction text with
  | nil => exact ⟨nofun, nofun⟩
  | cons c rest ih =>
    obtain ⟨run, later⟩ := ih
    have behind : ∀ word ∈ (if (splitRun rest).1.isEmpty then (splitRun rest).2
        else (splitRun rest).1 :: (splitRun rest).2), IsPiece word := by
      by_cases none : (splitRun rest).1 = []
      · simpa [none] using later
      · simpa [none] using ⟨.inr ⟨run, none⟩, later⟩
    unfold splitRun
    by_cases sign : isSign c = true
    · simp only [sign, if_true]
      exact ⟨nofun, List.forall_mem_cons.mpr ⟨.inl ⟨c, sign, rfl⟩, behind⟩⟩
    · by_cases blank : Text.isBlank c = true
      · simp only [sign, blank, if_true]
        exact ⟨nofun, behind⟩
      · simp only [sign, blank]
        have plain : isSign c = false ∧ Text.isBlank c = false := by simp [sign, blank]
        exact ⟨List.forall_mem_cons.mpr ⟨plain, run⟩, later⟩

theorem isPiece_of_mem_wordsOf {word text : List Char} (member : word ∈ wordsOf text) :
    IsPiece word := by
  obtain ⟨run, later⟩ := isPiece_of_splitRun text
  by_cases none : (splitRun text).1 = []
  · exact later word (by simpa [wordsOf, none] using member)
  · rcases (by simpa [wordsOf, none] using member : word = (splitRun text).1 ∨ _) with same | inside
    · exact .inr (same ▸ ⟨run, none⟩)
    · exact later word inside

theorem isTerm_of_isRun (run : IsRun word.toList) (nonempty : word.toList ≠ [])
    (noOperator : Operator.ofText? word = none) : IsTerm word := by
  refine ⟨nonempty, run, fun member => ?_⟩
  simp only [List.mem_cons, List.not_mem_nil, or_false] at member
  rcases member with rfl | rfl | rfl | rfl
  · cases noOperator
  · cases noOperator
  · cases noOperator
  · cases noOperator

/-- A piece of a text stands for a sign or for a word. -/
theorem known_ofWord (piece : IsPiece word.toList) :
    (ofWord word).IsSignToken ∨ (ofWord word).IsWordToken := by
  unfold ofWord
  split
  · exact .inl (.inl rfl)
  · exact .inl (.inr (.inl rfl))
  · rename_i notOpening notClosing
    split
    · exact known_operator _
    · rename_i noOperator
      rcases piece with ⟨c, sign, single⟩ | ⟨run, nonempty⟩
      · have sign : c = '(' ∨ c = ')' ∨ c = '@' := by simpa [isSign, or_assoc] using sign
        have same : word = String.ofList [c] := by rw [← single, String.ofList_toList]
        rcases sign with rfl | rfl | rfl
        · exact absurd same notOpening
        · exact absurd same notClosing
        · subst same
          cases noOperator
      · exact .inr (isTerm_of_isRun run nonempty noOperator)

/-- The tokens of any filter are signs and words. -/
theorem known_ofFilter (filter : String) :
    ∀ token ∈ ofFilter filter, token.IsSignToken ∨ token.IsWordToken := by
  intro token member
  obtain ⟨word, inside, rfl⟩ := List.mem_map.mp member
  exact known_ofWord (by simpa using isPiece_of_mem_wordsOf inside)

theorem isTerm_of_mem_ofFilter {filter : String} (member : .term word ∈ ofFilter filter) :
    IsTerm word := by
  rcases known_ofFilter filter _ member with (sign | sign | sign) | isTerm
  · cases sign
  · cases sign
  · cases sign
  · exact isTerm

end Token

namespace Phrase

variable [PatternEngine] {form : Form}

theorem isSignToken_or_isWordToken (phrase : Phrase form) :
    ∀ token ∈ phrase.tokens, token.IsSignToken ∨ token.IsWordToken := by
  induction phrase with
  | term word => exact List.forall_mem_singleton.mpr (.inr word.isTerm)
  | parens inside ih =>
    rw [tokens, List.forall_mem_append, List.forall_mem_cons, List.forall_mem_singleton]
    exact ⟨⟨.inl (.inl rfl), ih⟩, .inl (.inr (.inl rfl))⟩
  | primary operand ih => exact ih
  | unary op unary operand ih =>
    rw [tokens, List.forall_mem_cons]
    exact ⟨Token.known_operator op, ih⟩
  | single operand ih => exact ih
  | binary op binary left right ihLeft ihRight =>
    rw [tokens, List.forall_mem_append, List.forall_mem_cons]
    exact ⟨ihLeft, Token.known_operator op, ihRight⟩
  | adjacent left right ihLeft ihRight =>
    rw [tokens, List.forall_mem_append]
    exact ⟨ihLeft, ihRight⟩

theorem exists_spelled (phrase : Phrase form) :
    ∃ filter : String, Token.Spelled phrase.tokens filter.toList :=
  Token.exists_spelled phrase.isSignToken_or_isWordToken

end Phrase

end DoubleEntry.Query

import DoubleEntry.Proofs.Source.Escaping
import DoubleEntry.Source.Include

/-! What a single line means: the files that it names, and its text without the comment. What comes
behind a blank at the end of a line, such as a return or a comment, is read on its own. -/

namespace DoubleEntry

namespace Text

def dropReturn (line : List Char) : List Char :=
  if line.getLast?.any (· == '\r') then line.dropLast else line

theorem dropReturn_cases (line : List Char) :
    dropReturn line = line ∨ line = dropReturn line ++ ['\r'] := by
  unfold dropReturn
  split
  case isTrue ends =>
    obtain ⟨c, last, ret⟩ := (Option.any_eq_true _ _).mp ends
    rw [beq_iff_eq.mp ret] at last
    exact .inr (List.dropLast_append_getLast? _ last).symm
  case isFalse => exact .inl rfl

theorem splitWords_append_cons {c : Char} (blank : isBlank c = true) (line tail : List Char) :
    splitWords (line ++ c :: tail) = ((splitWords line).1, (splitWords line).2 ++ words tail) := by
  induction line with
  | nil => simp [splitWords, words, blank]
  | cons d rest ih =>
    rw [List.cons_append, splitWords, splitWords, ih]
    by_cases gap : isBlank d = true
    · by_cases empty : (splitWords rest).1.isEmpty = true <;> simp [gap, empty]
    · simp [gap]

/-- A blank ends a word. -/
theorem words_append_cons {c : Char} (blank : isBlank c = true) (line tail : List Char) :
    words (line ++ c :: tail) = words line ++ words tail := by
  rw [words, splitWords_append_cons blank, words.eq_1 line]
  by_cases empty : (splitWords line).1.isEmpty = true <;> simp [empty]

theorem stripMark_ne_nil {mark c : Char} (other : c ≠ mark) (rest : List Char) :
    stripMark mark (c :: rest) ≠ [] := by
  rw [stripMark, List.dropWhile_cons_of_neg (by simpa using other)]
  simp [List.dropWhile_eq_nil_iff, other]

end Text

namespace Source

open Text (dropReturn)

theorem unescaped_append_cons {c : Char} (plain : c ≠ '\\') (other : isCommentMarker c = false)
    (line tail : List Char) :
    unescaped (line ++ c :: tail) = unescaped line ∨
      unescaped (line ++ c :: tail) = unescaped line ++ c :: unescaped tail := by
  have after : unescaped (c :: tail) = c :: unescaped tail := by
    rw [unescaped_cons_of_ne plain, if_neg (Bool.eq_false_iff.mp other)]
  have spells := spells_unescaped line
  generalize unescaped line = text at spells ⊢
  obtain ⟨unread, rfl | ⟨starts, noEscape⟩, rfl⟩ := spells
  · have apart : startsComment (c :: tail) = false := other
    rw [List.append_nil, unescaped_escaped_append fun _ => apart, after]
    exact .inr rfl
  · have longer : Spells (escaped text ++ unread ++ c :: tail) text :=
      ⟨unread ++ c :: tail, .inr ⟨startsComment_append starts _, noEscape⟩, List.append_assoc ..⟩
    exact .inl longer.unescaped_eq

/-- A blank and a comment do not change the text of a line. -/
theorem stripComment_append_cons {c : Char} {tail : List Char} (blank : Text.isBlank c = true)
    (nothing : unescaped tail = []) (line : List Char) :
    stripComment (line ++ c :: tail) = stripComment line := by
  obtain ⟨other, plain⟩ := not_isCommentMarker_of_isBlank blank
  obtain same | more := unescaped_append_cons plain other line tail
  · rw [stripComment, same, stripComment]
  · rw [stripComment, more, nothing, Text.trimEnd_append_of_blank, stripComment]
    intro last member
    rw [List.mem_singleton.mp member]
    exact blank

/-- The words behind the keyword of an `include` line; none for any other line. -/
def includedWords? (line : List Char) : Option (List (List Char)) :=
  if line.head?.any Text.isBlank then none
  else match Text.words line with
    | [] => none
    | keyword :: words =>
      if keyword != "include".toList && keyword != "!include".toList then none else some words

/-- Whether a word ends the targets of an `include` line. -/
def endsTargets (word : List Char) : Bool := word.head? == some ';' || word.head? == some '#'

def targetsOf (words : List (List Char)) : List String :=
  let targets := (words.takeWhile fun word => !endsTargets word).map (Text.stripMark '"')
  (targets.filter fun target => !target.isEmpty).map String.ofList

theorem includeTargets?_eq (line : List Char) :
    includeTargets? line = (includedWords? line).map targetsOf := by
  have same : (fun word : List Char => word.head? != some ';' && word.head? != some '#') =
      fun word => !endsTargets word := by
    funext word
    simp [endsTargets, bne]
  rw [includeTargets?, includedWords?]
  split
  · rfl
  · cases Text.words line with
    | nil => rfl
    | cons keyword words =>
      dsimp only
      split
      · rfl
      · rw [same]
        rfl

/-- What follows a blank only adds words to an `include` line, and makes no other line one. -/
theorem includedWords?_append_cons {c : Char} (blank : Text.isBlank c = true)
    (line tail : List Char) :
    includedWords? (line ++ c :: tail) = (includedWords? line).map (· ++ Text.words tail) := by
  cases line with
  | nil => simp [includedWords?, blank, Text.words, Text.splitWords]
  | cons first rest =>
    by_cases indented : Text.isBlank first = true
    · simp [includedWords?, indented]
    · have solid : Text.words (first :: rest) =
          (first :: (Text.splitWords rest).1) :: (Text.splitWords rest).2 := by
        simp [Text.words, Text.splitWords, indented]
      rw [includedWords?, includedWords?, Text.words_append_cons blank, solid]
      simp only [List.cons_append, List.head?_cons, Option.any_some, indented, Bool.false_eq_true,
        if_false]
      split <;> rfl

theorem includeTargets?_append_return (line : List Char) :
    includeTargets? (line ++ ['\r']) = includeTargets? line := by
  rw [includeTargets?_eq, includedWords?_append_cons rfl, includeTargets?_eq]
  simp [Text.words, Text.splitWords]

/-- Two lines that name the same files and have the same text without comments. -/
structure SameMeaning (first second : List Char) : Prop where
  targets : includeTargets? first = includeTargets? second
  text : stripComment first = stripComment second

theorem SameMeaning.trans {first second third : List Char} (start : SameMeaning first second)
    (later : SameMeaning second third) : SameMeaning first third :=
  ⟨start.targets.trans later.targets, start.text.trans later.text⟩

theorem SameMeaning.symm {first second : List Char} (same : SameMeaning first second) :
    SameMeaning second first :=
  ⟨same.targets.symm, same.text.symm⟩

theorem sameMeaning_append_return (line : List Char) : SameMeaning (line ++ ['\r']) line :=
  ⟨includeTargets?_append_return line, stripComment_append_cons rfl rfl line⟩

theorem sameMeaning_dropReturn (line : List Char) : SameMeaning (dropReturn line) line := by
  obtain same | split := Text.dropReturn_cases line
  · rw [same]
    exact ⟨rfl, rfl⟩
  · conv_rhs => rw [split]
    exact (sameMeaning_append_return _).symm

/-! A comment at the end of a line, behind a blank. -/

theorem isCommentMarker_iff {c : Char} :
    isCommentMarker c = true ↔ c = ';' ∨ c = '#' ∨ c = '%' ∨ c = '|' ∨ c = '*' := by
  simp [isCommentMarker, commentMarkers]

/-- A line with a blank, a comment marker and a text behind it. -/
def withComment (line : List Char) (marker : Char) (comment : List Char) : List Char :=
  line ++ ' ' :: marker :: comment

/-- An `include` line none of whose words ends its targets, so that more of them may follow. -/
def takesMore (line : List Char) : Bool :=
  (includedWords? line).any fun words => !words.any endsTargets

variable {marker : Char} {line : List Char}

theorem stripComment_withComment (marks : isCommentMarker marker = true)
    (line comment : List Char) :
    stripComment (withComment line marker comment) = stripComment line :=
  stripComment_append_cons rfl (unescaped_of_marker marks comment) line

theorem targetsOf_cons (word : List Char) (words : List (List Char)) :
    targetsOf (word :: words) = if endsTargets word then [] else
      ([Text.stripMark '"' word].filter fun target => !target.isEmpty).map String.ofList ++
        targetsOf words := by
  cases ends : endsTargets word with
  | true => simp [targetsOf, ends]
  | false => by_cases empty : (Text.stripMark '"' word).isEmpty = true <;>
      simp [targetsOf, ends, empty]

theorem targetsOf_append (words more : List (List Char)) :
    targetsOf (words ++ more) =
      targetsOf words ++ if words.any endsTargets then [] else targetsOf more := by
  induction words with
  | nil => rfl
  | cons word words ih =>
    rw [List.cons_append, targetsOf_cons, targetsOf_cons, ih, List.any_cons]
    cases endsTargets word <;> simp

/-- The words of a comment are targets, unless its marker ends the targets. -/
theorem targetsOf_comment_eq_nil_iff (marks : isCommentMarker marker = true)
    (comment : List Char) :
    targetsOf (Text.words (marker :: comment)) = [] ↔ marker = ';' ∨ marker = '#' := by
  have solid := not_isBlank_of_isCommentMarker marks
  have words : Text.words (marker :: comment) =
      (marker :: (Text.splitWords comment).1) :: (Text.splitWords comment).2 := by
    simp [Text.words, Text.splitWords, solid]
  have noMark : marker ≠ '"' := by
    rintro rfl
    cases marks
  have named := Text.stripMark_ne_nil noMark (Text.splitWords comment).1
  rw [words, targetsOf_cons]
  rcases isCommentMarker_iff.mp marks with rfl | rfl | rfl | rfl | rfl <;>
    simp [endsTargets, named]

/-- The files that an `include` line names with a comment: those it names without, and with some
markers the words of the comment. -/
theorem includeTargets?_withComment (line : List Char) (marker : Char) (comment : List Char) :
    includeTargets? (withComment line marker comment) =
      (includeTargets? line).map (· ++ if takesMore line then
        targetsOf (Text.words (marker :: comment)) else []) := by
  rw [includeTargets?_eq, withComment, includedWords?_append_cons rfl, includeTargets?_eq,
    takesMore]
  cases includedWords? line with
  | none => rfl
  | some words => cases ended : words.any endsTargets <;> simp [targetsOf_append, ended]

theorem sameMeaning_withComment (marks : isCommentMarker marker = true)
    (harmless : takesMore line = true → marker = ';' ∨ marker = '#') (comment : List Char) :
    SameMeaning (withComment line marker comment) line := by
  refine ⟨?_, stripComment_withComment marks line comment⟩
  rw [includeTargets?_withComment]
  cases more : takesMore line with
  | false => simp
  | true => simp [(targetsOf_comment_eq_nil_iff marks comment).mpr (harmless more)]

end Source

end DoubleEntry

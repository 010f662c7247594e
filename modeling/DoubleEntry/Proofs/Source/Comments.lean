import DoubleEntry.Proofs.Text.Trimming
import DoubleEntry.Source.Comment

/-! What is left of a line without its comment. A line without markers is left as it is; a line with
one loses the marker, or the backslash that escapes it. -/

namespace DoubleEntry.Source

variable {line : List Char}

def Unmarked (text : List Char) : Prop := ∀ c ∈ text, isCommentMarker c = false

instance (text : List Char) : Decidable (Unmarked text) :=
  List.decidableBAll _ text

def marks (text : List Char) : Nat := text.countP fun c => isCommentMarker c || c == '\\'

theorem marks_append (first second : List Char) :
    marks (first ++ second) = marks first + marks second :=
  List.countP_append

theorem marks_le_of_sublist {part : List Char} (inside : part.Sublist line) :
    marks part ≤ marks line :=
  inside.countP_le

theorem unmarked_append {first second : List Char} :
    Unmarked (first ++ second) ↔ Unmarked first ∧ Unmarked second :=
  List.forall_mem_append

theorem unmarked_cons {c : Char} {rest : List Char} :
    Unmarked (c :: rest) ↔ isCommentMarker c = false ∧ Unmarked rest :=
  List.forall_mem_cons

/-- A class of characters without the markers and the backslash. -/
private theorem plain_of_class {isIn : Char → Bool} (none : commentMarkers.any isIn = false)
    (noEscape : isIn '\\' = false) {c : Char} (inside : isIn c = true) :
    isCommentMarker c = false ∧ c ≠ '\\' := by
  constructor
  · rw [isCommentMarker, List.contains_eq_mem, decide_eq_false_iff_not]
    intro marker
    exact absurd inside (List.any_eq_false.mp none c marker)
  · rintro rfl
    rw [inside] at noEscape
    cases noEscape

theorem not_isCommentMarker_of_isDigit {c : Char} (digit : c.isDigit = true) :
    isCommentMarker c = false ∧ c ≠ '\\' :=
  plain_of_class (by decide) (by decide) digit

theorem not_isCommentMarker_of_isBlank {c : Char} (blank : Text.isBlank c = true) :
    isCommentMarker c = false ∧ c ≠ '\\' :=
  plain_of_class (by decide) (by decide) blank

theorem not_isBlank_of_isCommentMarker {c : Char} (marker : isCommentMarker c = true) :
    Text.isBlank c = false := by
  by_contra blank
  rw [(not_isCommentMarker_of_isBlank (Bool.not_eq_false _ ▸ blank)).1] at marker
  cases marker

theorem unescaped_cons_of_ne {c : Char} (plain : c ≠ '\\') (rest : List Char) :
    unescaped (c :: rest) = if isCommentMarker c then [] else c :: unescaped rest := by
  rw [unescaped]
  · exact fun same => absurd same plain
  · exact fun _ _ same => absurd same plain

theorem unescaped_of_marker {marker : Char} (marks : isCommentMarker marker = true)
    (comment : List Char) : unescaped (marker :: comment) = [] := by
  rw [unescaped_cons_of_ne, if_pos marks]
  rintro rfl
  cases marks

theorem unescaped_sublist (line : List Char) : (unescaped line).Sublist line := by
  fun_induction unescaped line with
  | case1 => exact .slnil
  | case2 => exact .refl _
  | case3 c rest marker ih => exact (ih.cons_cons c).cons _
  | case4 c rest other ih => exact ih.cons_cons _
  | case5 c rest _ _ marker => exact List.nil_sublist _
  | case6 c rest _ _ other ih => exact ih.cons_cons _

theorem stripComment_sublist (line : List Char) : (stripComment line).Sublist line :=
  (Text.trimEnd_isPrefix _).sublist.trans (unescaped_sublist line)

theorem unescaped_of_unmarked (unmarked : Unmarked line) : unescaped line = line := by
  fun_induction unescaped line with
  | case1 => rfl
  | case2 => rfl
  | case3 c rest marker =>
    have other := unmarked c (by simp)
    rw [marker] at other
    cases other
  | case4 c rest other ih =>
    rw [ih fun c member => unmarked c (List.mem_cons_of_mem _ member)]
  | case5 c rest _ _ marker =>
    have other := unmarked c (by simp)
    rw [marker] at other
    cases other
  | case6 c rest _ _ other ih =>
    rw [ih fun c member => unmarked c (List.mem_cons_of_mem _ member)]

theorem stripComment_of_unmarked (unmarked : Unmarked line) :
    stripComment line = Text.trimEnd line := by
  rw [stripComment, unescaped_of_unmarked unmarked]

/-- A comment takes its marker away, and an escape its backslash. -/
theorem marks_unescaped_lt (marked : ¬ Unmarked line) : marks (unescaped line) < marks line := by
  have step {c : Char} {rest kept : List Char} (ih : ¬ Unmarked rest → marks kept < marks rest)
      (other : ¬ isCommentMarker c = true) (marked : ¬ Unmarked (c :: rest)) :
      marks (c :: kept) < marks (c :: rest) := by
    have later : ¬ Unmarked rest := fun unmarked =>
      marked (unmarked_cons.mpr ⟨Bool.eq_false_iff.mpr other, unmarked⟩)
    have less := ih later
    simp only [marks, List.countP_cons] at less ⊢
    omega
  fun_induction unescaped line with
  | case1 => exact absurd (fun _ member => nomatch member) marked
  | case2 =>
    refine absurd (fun c member => ?_) marked
    rw [List.mem_singleton.mp member]
    decide
  | case3 c rest marker ih =>
    have kept := marks_le_of_sublist ((unescaped_sublist rest).cons_cons c)
    simp only [marks, List.countP_cons] at kept ⊢
    simp
    omega
  | case4 c rest other ih => exact step ih (by decide) marked
  | case5 c rest _ _ marker => simp [marks, marker]
  | case6 c rest _ _ other ih => exact step ih other marked

theorem marks_stripComment_lt (marked : ¬ Unmarked line) :
    marks (stripComment line) < marks line :=
  (marks_le_of_sublist (Text.trimEnd_isPrefix _).sublist).trans_lt (marks_unescaped_lt marked)

end DoubleEntry.Source

import DoubleEntry.Proofs.Source.Comments

/-! Escaping. Any text can stand in a line, with a backslash in front of each of its markers. A line
is nothing else: the escaped form of what it says, and then its end or a comment. So apart from the
comment there is one way to spell a text, although a backslash is also an ordinary character. -/

namespace DoubleEntry.Source

variable {text tail rest line : List Char}

/-- A character as it is spelled in a line. -/
def escapedChar (c : Char) : List Char := if isCommentMarker c then ['\\', c] else [c]

/-- A text with a backslash in front of each marker. Its own backslashes are not doubled. -/
def escaped (text : List Char) : List Char := text.flatMap escapedChar

theorem escaped_cons (c : Char) (text : List Char) :
    escaped (c :: text) = escapedChar c ++ escaped text :=
  rfl

def startsComment (text : List Char) : Bool := text.head?.any isCommentMarker

@[simp] theorem startsComment_nil : startsComment [] = false := rfl

@[simp] theorem startsComment_cons (c : Char) (rest : List Char) :
    startsComment (c :: rest) = isCommentMarker c :=
  rfl

theorem startsComment_append (starts : startsComment tail = true) (rest : List Char) :
    startsComment (tail ++ rest) = true := by
  cases tail with
  | nil => cases starts
  | cons marker comment => exact starts

theorem unescaped_of_startsComment (starts : startsComment tail = true) : unescaped tail = [] := by
  cases tail with
  | nil => cases starts
  | cons marker comment => exact unescaped_of_marker starts comment

/-- A backslash stands for itself, unless a marker follows. -/
theorem unescaped_backslash (plain : startsComment rest = false) :
    unescaped ('\\' :: rest) = '\\' :: unescaped rest := by
  cases rest with
  | nil => rfl
  | cons c rest =>
    rw [startsComment_cons] at plain
    rw [unescaped, plain]
    rfl

theorem unescaped_escapedChar {c : Char} (plain : c = '\\' → startsComment rest = false) :
    unescaped (escapedChar c ++ rest) = c :: unescaped rest := by
  unfold escapedChar
  split
  case isTrue marker => simp [unescaped, marker]
  case isFalse other =>
    by_cases backslash : c = '\\'
    · subst backslash
      exact unescaped_backslash (plain rfl)
    · exact (unescaped_cons_of_ne backslash rest).trans (if_neg other)

/-- No escaped text starts with a marker, so a backslash in front of it does not escape anything. -/
theorem startsComment_escaped_append (plain : text = [] → startsComment rest = false) :
    startsComment (escaped text ++ rest) = false := by
  cases text with
  | nil => exact plain rfl
  | cons c text =>
    rw [escaped_cons, escapedChar]
    split
    case isTrue => rfl
    case isFalse other => exact Bool.eq_false_iff.mpr other

/-- An escaped text is read as the text, whatever follows; only a backslash at its end and a marker
behind it would be taken for an escape. -/
theorem unescaped_escaped_append
    (apart : text.getLast? = some '\\' → startsComment rest = false) :
    unescaped (escaped text ++ rest) = text ++ unescaped rest := by
  induction text with
  | nil => rfl
  | cons c text ih =>
    -- a backslash of the text is read as such, for what follows it is escaped as well
    have follows : c = '\\' → startsComment (escaped text ++ rest) = false := by
      rintro rfl
      refine startsComment_escaped_append fun empty => apart ?_
      rw [empty]
      rfl
    have later : text.getLast? = some '\\' → startsComment rest = false := by
      intro last
      refine apart ?_
      rw [List.getLast?_cons, last]
      rfl
    rw [escaped_cons, List.append_assoc, unescaped_escapedChar follows, ih later]
    rfl

/-- What may follow an escaped text in a line without being read: nothing, or a comment. -/
def Unread (text tail : List Char) : Prop :=
  tail = [] ∨ startsComment tail = true ∧ text.getLast? ≠ some '\\'

theorem Unread.cons (unread : Unread text tail) {c : Char}
    (plain : c = '\\' → startsComment (escaped text ++ tail) = false) :
    Unread (c :: text) tail := by
  refine unread.imp_right fun ⟨starts, noEscape⟩ => ⟨starts, ?_⟩
  cases text with
  | nil =>
    intro last
    cases last
    cases starts.symm.trans (plain rfl)
  | cons d text => rwa [List.getLast?_cons_cons]

/-- A line spells a text: it is the escaped text, and then its end or a comment. -/
def Spells (line text : List Char) : Prop := ∃ tail, Unread text tail ∧ line = escaped text ++ tail

theorem Spells.cons (spells : Spells line text) {c : Char}
    (plain : c = '\\' → startsComment line = false) :
    Spells (escapedChar c ++ line) (c :: text) := by
  obtain ⟨tail, unread, rfl⟩ := spells
  exact ⟨tail, unread.cons plain, (List.append_assoc ..).symm⟩

theorem Spells.unescaped_eq (spells : Spells line text) : unescaped line = text := by
  obtain ⟨tail, nothing | ⟨starts, noEscape⟩, rfl⟩ := spells
  · rw [nothing, unescaped_escaped_append fun _ => rfl]
    exact List.append_nil text
  · rw [unescaped_escaped_append fun last => absurd last noEscape,
      unescaped_of_startsComment starts, List.append_nil]

theorem spells_unescaped (line : List Char) : Spells line (unescaped line) := by
  fun_induction unescaped line with
  | case1 => exact ⟨[], .inl rfl, rfl⟩
  | case2 => exact ⟨[], .inl rfl, rfl⟩
  | case3 c rest marker ih =>
    have noEscape : c ≠ '\\' := by
      rintro rfl
      cases marker
    have spelled : escapedChar c = ['\\', c] := if_pos marker
    have spells := ih.cons fun same => absurd same noEscape
    rwa [spelled] at spells
  | case4 c rest other ih => exact ih.cons fun _ => Bool.eq_false_iff.mpr other
  | case5 c rest _ _ marker =>
    have empty : ([] : List Char).getLast? ≠ some '\\' := (Option.some_ne_none _).symm
    exact ⟨c :: rest, .inr ⟨marker, empty⟩, rfl⟩
  | case6 c rest _ escapes other ih =>
    have spelled : escapedChar c = [c] := if_neg other
    have spells := ih.cons fun same => by
      cases rest with
      | nil => rfl
      | cons d rest => exact (escapes d rest same rfl).elim
    rwa [spelled] at spells

/-- What a line says without its comment has one spelling only. -/
theorem unescaped_eq_iff_spells : unescaped line = text ↔ Spells line text :=
  ⟨fun same => same ▸ spells_unescaped line, Spells.unescaped_eq⟩

theorem stripComment_of_spells (spells : Spells line text) :
    stripComment line = Text.trimEnd text := by
  rw [stripComment, spells.unescaped_eq]

/-- Behind a backslash at the end of a text, a marker is a part of the text, and the backslash is
not. -/
theorem stripComment_escaped_backslash {marker : Char} (marks : isCommentMarker marker = true)
    (before rest : List Char) :
    stripComment (escaped (before ++ ['\\']) ++ marker :: rest) =
      before ++ marker :: stripComment rest := by
  have split : escaped (before ++ ['\\']) ++ marker :: rest =
      escaped before ++ '\\' :: marker :: rest := by
    rw [escaped, List.flatMap_append]
    exact List.append_assoc ..
  have escapes : unescaped ('\\' :: marker :: rest) = marker :: unescaped rest := by
    simp [unescaped, marks]
  rw [split, stripComment, unescaped_escaped_append fun _ => rfl, escapes,
    Text.trimEnd_append_cons (not_isBlank_of_isCommentMarker marks), stripComment]

/-- Escaping is faithful. An escaped text is read as the text without the blanks at its end. With
any marker and any text behind it, it is so read if and only if the text does not end in a
backslash. What is left of a line without its comment has no blank at its end, and is read again
from its escaped form. -/
theorem escaping_is_faithful :
    (∀ text : List Char, stripComment (escaped text) = text.rdropWhile Text.isBlank) ∧
    (∀ (text rest : List Char) (marker : Char), isCommentMarker marker = true →
      (stripComment (escaped text ++ marker :: rest) = text.rdropWhile Text.isBlank ↔
        text.getLast? ≠ some '\\')) ∧
    ∀ line : List Char, (∀ c ∈ (stripComment line).getLast?, Text.isBlank c = false) ∧
      stripComment (escaped (stripComment line)) = stripComment line := by
  have whole (text : List Char) : stripComment (escaped text) = Text.trimEnd text :=
    stripComment_of_spells ⟨[], .inl rfl, (List.append_nil _).symm⟩
  refine ⟨fun text => ?_, fun text rest marker marks => ⟨fun same last => ?_, fun apart => ?_⟩,
    fun line => ⟨Text.getLast?_trimEnd _, ?_⟩⟩
  · rw [whole, Text.trimEnd_eq_rdropWhile]
  · obtain ⟨before, rfl⟩ := List.getLast?_eq_some_iff.mp last
    rw [stripComment_escaped_backslash marks, ← Text.trimEnd_eq_rdropWhile,
      Text.trimEnd_append_cons rfl] at same
    obtain ⟨rfl, _⟩ := List.cons.inj (List.append_cancel_left same)
    cases marks
  · rw [← Text.trimEnd_eq_rdropWhile]
    exact stripComment_of_spells ⟨marker :: rest, .inr ⟨marks, apart⟩, rfl⟩
  · rw [whole, stripComment, Text.trimEnd_idem]

/-- A text with a backslash, markers and a blank at its end, and one that ends in a backslash. -/
theorem escaping_is_faithful_bought :
    escaped "Bought \\#1 | ".toList = "Bought \\\\#1 \\| ".toList ∧
    isCommentMarker ';' = true ∧
    stripComment "Bought \\\\#1 \\| ; at Joe".toList = "Bought \\#1 |".toList ∧
    stripComment "C:\\; at Joe".toList ≠ "C:\\".toList := by
  have spelled : escaped "Bought \\#1 | ".toList = "Bought \\\\#1 \\| ".toList := by decide
  have marks : isCommentMarker ';' = true := by decide
  obtain ⟨_, behind, _⟩ := escaping_is_faithful
  have read := (behind "Bought \\#1 | ".toList " at Joe".toList ';' marks).mpr (by decide)
  have unread := mt (behind "C:\\".toList " at Joe".toList ';' marks).mp (by decide)
  rw [spelled] at read
  exact ⟨spelled, marks, read, unread⟩

end DoubleEntry.Source

import DoubleEntry.Text.Blank
import Mathlib.Data.List.DropRight

/-! Runs of characters at the start of a text, and texts without blanks at their ends. -/

namespace DoubleEntry.Text

variable {text run rest : List Char} {holds : Char → Bool}

theorem not_isBlank_of_isDigit {c : Char} (digit : c.isDigit = true) : isBlank c = false := by
  have bounds : 48 ≤ c.toNat ∧ c.toNat ≤ 57 := Char.isDigit_iff_toNat.mp digit
  simp [isBlank]
  omega

theorem takeWhile_append_of_stop (inside : ∀ c ∈ run, holds c = true)
    (stops : ∀ c ∈ rest.head?, holds c = false) : (run ++ rest).takeWhile holds = run := by
  rw [List.takeWhile_append_of_pos inside]
  cases rest with
  | nil => simp
  | cons c rest => simp [stops c rfl]

theorem dropWhile_append_of_stop (inside : ∀ c ∈ run, holds c = true)
    (stops : ∀ c ∈ rest.head?, holds c = false) : (run ++ rest).dropWhile holds = rest := by
  rw [List.dropWhile_append_of_pos inside]
  cases rest with
  | nil => rfl
  | cons c rest => simp [stops c rfl]

structure Trimmed (text : List Char) : Prop where
  starts : ∀ c ∈ text.head?, isBlank c = false
  ends : ∀ c ∈ text.getLast?, isBlank c = false

theorem any_isBlank_eq_false_iff {edge : Option Char} :
    edge.any isBlank = false ↔ ∀ c ∈ edge, isBlank c = false := by
  cases edge <;> simp

-- decided at the two ends; a search through all characters would never end
instance (text : List Char) : Decidable (Trimmed text) :=
  decidable_of_iff (text.head?.any isBlank = false ∧ text.getLast?.any isBlank = false) (by
    rw [any_isBlank_eq_false_iff, any_isBlank_eq_false_iff]
    exact ⟨fun solid => ⟨solid.1, solid.2⟩, fun trimmed => ⟨trimmed.starts, trimmed.ends⟩⟩)

/-- An append starts without a blank if the first part that is not empty does, and likewise for its
end. -/
theorem Trimmed.append {first second : List Char}
    (starts : ∀ c ∈ first.head?, isBlank c = false)
    (starts' : first = [] → ∀ c ∈ second.head?, isBlank c = false)
    (ends : ∀ c ∈ second.getLast?, isBlank c = false)
    (ends' : second = [] → ∀ c ∈ first.getLast?, isBlank c = false) :
    Trimmed (first ++ second) where
  starts c head := by
    cases first with
    | nil => exact starts' rfl c head
    | cons => exact starts c head
  ends c last := by
    cases second with
    | nil =>
      rw [List.append_nil] at last
      exact ends' rfl c last
    | cons =>
      rw [List.getLast?_append_of_ne_nil _ (by simp)] at last
      exact ends c last

theorem Trimmed.append_trimmed {first second : List Char} (left : Trimmed first)
    (right : Trimmed second) : Trimmed (first ++ second) :=
  .append left.starts (fun _ => right.starts) right.ends (fun _ => left.ends)

theorem trimmed_of_solid (solid : ∀ c ∈ text, isBlank c = false) : Trimmed text where
  starts c first := solid c (List.mem_of_mem_head? first)
  ends c last := solid c (List.mem_of_mem_getLast? last)

theorem trimEnd_eq_rdropWhile (text : List Char) : trimEnd text = text.rdropWhile isBlank := by
  induction text with
  | nil => rfl
  | cons c rest ih =>
    rw [trimEnd, ih, List.rdropWhile, List.rdropWhile, List.reverse_cons, List.dropWhile_append]
    cases kept : rest.reverse.dropWhile isBlank with
    | nil => cases blank : isBlank c <;> simp [blank]
    | cons => simp

theorem trimEnd_isPrefix (text : List Char) : trimEnd text <+: text := by
  rw [trimEnd_eq_rdropWhile]
  exact List.rdropWhile_prefix ..

theorem trimStart_isSuffix (text : List Char) : trimStart text <:+ text :=
  List.dropWhile_suffix isBlank

theorem trim_sublist (text : List Char) : (trim text).Sublist text :=
  (trimEnd_isPrefix _).sublist.trans (trimStart_isSuffix text).sublist

theorem getLast?_trimEnd (text : List Char) :
    ∀ c ∈ (trimEnd text).getLast?, isBlank c = false := by
  intro c last
  rw [trimEnd_eq_rdropWhile] at last
  have nonempty : text.rdropWhile isBlank ≠ [] := by
    intro nothing
    rw [nothing] at last
    cases last
  have stopped := List.rdropWhile_last_not isBlank text nonempty
  rw [List.getLast?_eq_some_getLast nonempty] at last
  rw [← Option.some.inj last]
  simpa using stopped

theorem trimmed_trimEnd (starts : ∀ c ∈ text.head?, isBlank c = false) :
    Trimmed (trimEnd text) where
  starts c first := by
    obtain ⟨dropped, split⟩ := trimEnd_isPrefix text
    cases kept : trimEnd text with
    | nil => rw [kept] at first; cases first
    | cons c' rest =>
      rw [kept] at first split
      rw [← Option.some.inj first]
      exact starts c' (by rw [← split]; rfl)
  ends := getLast?_trimEnd text

theorem head?_trimStart (text : List Char) : ∀ c ∈ (trimStart text).head?, isBlank c = false := by
  intro c first
  have stopped := List.head?_dropWhile_not isBlank text
  change (text.dropWhile isBlank).head? = some c at first
  rw [first] at stopped
  simpa using stopped

theorem trimmed_trim (text : List Char) : Trimmed (trim text) :=
  trimmed_trimEnd (head?_trimStart text)

theorem trimEnd_of_trimmed (trimmed : Trimmed text) : trimEnd text = text := by
  rw [trimEnd_eq_rdropWhile, List.rdropWhile_eq_self_iff]
  intro nonempty
  simpa using trimmed.ends _ (List.getLast?_eq_some_getLast nonempty)

theorem trimStart_of_starts (starts : ∀ c ∈ text.head?, isBlank c = false) :
    trimStart text = text := by
  cases text with
  | nil => rfl
  | cons c rest => simp [trimStart, starts c rfl]

theorem trim_of_trimmed (trimmed : Trimmed text) : trim text = text := by
  rw [trim, trimStart_of_starts trimmed.starts, trimEnd_of_trimmed trimmed]

/-- Blanks in front are those of the first part, if the second one starts with none. -/
theorem trimStart_append (starts : ∀ c ∈ rest.head?, isBlank c = false) :
    trimStart (run ++ rest) = trimStart run ++ rest := by
  rw [trimStart, trimStart, List.dropWhile_append]
  cases kept : run.dropWhile isBlank with
  | nil =>
    cases rest with
    | nil => rfl
    | cons c rest => simp [starts c rfl]
  | cons => rfl

theorem trimStart_trimEnd (text : List Char) :
    trimStart (trimEnd text) = trimEnd (trimStart text) := by
  induction text with
  | nil => rfl
  | cons c rest ih =>
    cases blank : isBlank c with
    | false => simp [trimStart, trimEnd, blank]
    | true =>
      have skipped : trimStart (c :: rest) = trimStart rest := by simp [trimStart, blank]
      rw [skipped, ← ih, trimEnd]
      cases kept : trimEnd rest with
      | nil => simp [blank]
      | cons => simp [trimStart, blank]

theorem trim_trimEnd (text : List Char) : trim (trimEnd text) = trim text := by
  rw [trim, trimStart_trimEnd, trimEnd_idem, trim]

theorem trim_cons_of_not_blank {c : Char} (solid : isBlank c = false) (rest : List Char) :
    trim (c :: rest) = c :: trimEnd rest := by
  simp [trim, trimStart, trimEnd, solid]

/-- Only blanks are lost at the start. -/
theorem trim_append_of_blank (blanks : ∀ c ∈ run, isBlank c = true) :
    trim (run ++ rest) = trim rest := by
  rw [trim, trimStart, List.dropWhile_append_of_pos blanks]
  rfl

/-- A character that is not blank keeps all that stands in front of it. -/
theorem trimEnd_append_cons {c : Char} (solid : isBlank c = false) (run rest : List Char) :
    trimEnd (run ++ c :: rest) = run ++ c :: trimEnd rest := by
  induction run with
  | nil => exact trimEnd_cons_of_not_blank solid rest
  | cons d run ih =>
    rw [List.cons_append, trimEnd, ih]
    simp

/-- Only blanks are lost at the end. -/
theorem trimEnd_append_of_blank (blanks : ∀ c ∈ run, isBlank c = true) :
    trimEnd (text ++ run) = trimEnd text := by
  have dropped : run.reverse.dropWhile isBlank = [] := by
    rw [List.dropWhile_eq_nil_iff]
    exact fun c member => blanks c (List.mem_reverse.mp member)
  rw [trimEnd_eq_rdropWhile, trimEnd_eq_rdropWhile, List.rdropWhile, List.rdropWhile,
    List.reverse_append, List.dropWhile_append, dropped]
  rfl

/-- The end of a text is the end of each of its ends. -/
theorem ends_of_isSuffix {part : List Char} (isEnd : part <:+ text)
    (ends : ∀ c ∈ text.getLast?, isBlank c = false) : ∀ c ∈ part.getLast?, isBlank c = false := by
  obtain ⟨before, rfl⟩ := isEnd
  intro c last
  refine ends c ?_
  rw [List.getLast?_append_of_ne_nil]
  · exact last
  · rintro rfl
    cases last

@[simp] theorem trim_trim (text : List Char) : trim (trim text) = trim text :=
  trim_of_trimmed (trimmed_trim text)

end DoubleEntry.Text

import DoubleEntry.Source.Include
import Mathlib.Data.List.DropRight

/-! What an `include` line stands for, from its text alone: the targets written on it, the path of
each as seen from a directory, and the files of each path. The reader finds the same targets and
the same files. -/

namespace DoubleEntry

namespace Text

/-- The parts between blanks. The first is empty if the line is or starts with a blank; `splitWords`
leaves out the others that are. -/
theorem exists_splitOnP_eq (line : List Char) : ∃ first later,
    line.splitOnP isBlank = first :: later ∧
      splitWords line = (first, later.filter fun word => !word.isEmpty) ∧
      (first = [] ↔ line = [] ∨ line.head?.any isBlank = true) := by
  induction line with
  | nil => exact ⟨[], [], by simp [List.splitOnP_nil], rfl, by simp⟩
  | cons c rest ih =>
    obtain ⟨first, later, parts, words, -⟩ := ih
    rw [List.splitOnP_cons_eq_if_modifyHead, splitWords, parts, words]
    by_cases blank : isBlank c = true
    · refine ⟨[], first :: later, by simp [blank], ?_, by simp [blank]⟩
      by_cases empty : first.isEmpty = true <;> simp [blank, empty]
    · exact ⟨c :: first, later, by simp [blank], by simp [blank], by simp [blank]⟩

end Text

namespace Source

def unquoted (word : List Char) : List Char :=
  (word.dropWhile (· == '"')).rdropWhile (· == '"')

/-- The targets on a line that starts with the word `include` or `!include`; none for any other
line. A word that starts with a semicolon or a number sign starts a comment. -/
def writtenTargets? (line : List Char) : Option (List String) :=
  match line.splitOnP Text.isBlank with
  | [] => none
  | keyword :: others =>
    if keyword = "include".toList ∨ keyword = "!include".toList then
      let words := others.filter fun word => !word.isEmpty
      let named := words.takeWhile fun word => !(word.head? == some ';' || word.head? == some '#')
      some (((named.map unquoted).filter fun target => !target.isEmpty).map String.ofList)
    else none

def seenFrom (dir target : String) : String :=
  if target.toList.head? = some '/' ∨ dir = "" then target
  else if dir.toList.getLast? = some '/' then dir ++ target
  else dir ++ "/" ++ target

/-- The files of a path: the path itself, or the files that it matches as a pattern, in order. -/
def filesOf (files : FileAccess) (path : String) : Except ParseFault (List String) :=
  if '*' ∈ path.toList ∨ '?' ∈ path.toList then
    match files.expand? path with
    | none => .error (.unreadable path .badPattern)
    | some found => .ok ((found.filter files.isFile).mergeSort Path.ordered)
  else .ok [path]

/-- The files of some targets, one target after the other, up to the first bad pattern. -/
def filesNamed (files : FileAccess) (dir : String) : List String → Except ParseFault (List String)
  | [] => .ok []
  | target :: later => do
    return (← filesOf files (seenFrom dir target)) ++ (← filesNamed files dir later)

theorem writtenTargets?_eq (line : List Char) : writtenTargets? line = includeTargets? line := by
  have solid : (fun word : List Char => !(word.head? == some ';' || word.head? == some '#')) =
      fun word => word.head? != some ';' && word.head? != some '#' :=
    funext fun word => Bool.not_or ..
  obtain ⟨first, later, parts, words, empty⟩ := Text.exists_splitOnP_eq line
  rw [writtenTargets?, parts, includeTargets?, Text.words, words]
  cases first with
  | nil =>
    obtain rfl | blank := empty.mp rfl
    · obtain rfl : later = [] := by simpa [List.splitOnP_nil] using parts
      rfl
    · rw [if_pos blank]
      rfl
  | cons c more =>
    have noBlank : ¬ line.head?.any Text.isBlank = true := by
      intro blank
      cases empty.mpr (.inr blank)
    rw [if_neg noBlank]
    by_cases keyword : c :: more = "include".toList ∨ c :: more = "!include".toList
    · have named : ¬ (c :: more != "include".toList && c :: more != "!include".toList) = true := by
        simpa [or_iff_not_imp_left] using keyword
      simp only [List.isEmpty_cons, Bool.false_eq_true, if_false, if_pos keyword, if_neg named,
        solid]
      rfl
    · have unnamed : (c :: more != "include".toList && c :: more != "!include".toList) = true := by
        simpa using keyword
      simp only [List.isEmpty_cons, Bool.false_eq_true, if_false, if_neg keyword, if_pos unnamed]

theorem seenFrom_eq (dir target : String) : seenFrom dir target = Path.join dir target := by
  simp [seenFrom, Path.join, Path.isAbsolute]

theorem filesOf_eq (files : FileAccess) (path : String) :
    filesOf files path = expandTarget files path := by
  have pattern : (path.toList.any fun c => c == '*' || c == '?') = true ↔
      '*' ∈ path.toList ∨ '?' ∈ path.toList := by
    simp [and_or_left, exists_or]
  rw [filesOf, expandTarget]
  by_cases wild : '*' ∈ path.toList ∨ '?' ∈ path.toList
  · rw [if_pos wild, pattern.mpr wild]
    rfl
  · rw [if_neg wild, Bool.eq_false_iff.mpr (mt pattern.mp wild)]
    rfl

theorem expandTargets_cons (files : FileAccess) (dir target : String) (targets : List String) :
    expandTargets files dir (target :: targets) = do
      return (← expandTarget files (Path.join dir target)) ++
        (← expandTargets files dir targets) := by
  rw [expandTargets, List.mapM_cons, expandTargets]
  cases expandTarget files (Path.join dir target) with
  | error => rfl
  | ok =>
    cases List.mapM (fun target => expandTarget files (Path.join dir target)) targets with
    | error => rfl
    | ok => rfl

theorem filesNamed_eq (files : FileAccess) (dir : String) (targets : List String) :
    filesNamed files dir targets = expandTargets files dir targets := by
  induction targets with
  | nil => rfl
  | cons target targets ih => rw [filesNamed, expandTargets_cons, filesOf_eq, seenFrom_eq, ih]

end Source

end DoubleEntry

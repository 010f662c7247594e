import DoubleEntry.Proofs.Source.LineMeaning
import DoubleEntry.Proofs.Source.TextLines

/-! Two texts joined by a line feed. Their lines are those of the first text and then those of the
second, counted on. Where the first text ends with a return or with nothing on its last line, the
lines that have a meaning are still the same. -/

namespace DoubleEntry

theorem length_splitOn {α : Type} [BEq α] [LawfulBEq α] (mark : α) (text : List α) :
    (text.splitOn mark).length = 1 + text.count mark := by
  induction text with
  | nil => simp
  | cons c rest ih =>
    rw [List.splitOn_cons_eq_if_modifyHead, List.count_cons]
    cases same : c == mark with
    | true => simp [ih, Nat.add_assoc]
    | false => simp [ih]

namespace Text

theorem lines_append_feed (first second : List Char) :
    lines (first ++ '\n' :: second) = (first.splitOn '\n').map dropReturn ++ lines second := by
  have nonempty := List.splitOn_ne_nil '\n' second
  rw [lines, lines, splitLines, splitLines, List.splitOn_append_cons_self,
    List.dropLast_append_of_ne_nil nonempty, List.getLast?_append_of_ne_nil _ nonempty,
    List.map_append]
  split
  · rfl
  · rfl
  · exact List.append_assoc ..

/-- Only the last line of a text keeps a return, and is left out if there is nothing on it. -/
theorem exists_lines_eq (text : List Char) : ∃ early last,
    text.splitOn '\n' = early ++ [last] ∧
      lines text = early.map dropReturn ++ if last.isEmpty then [] else [last] := by
  obtain ⟨early, last, parts⟩ := (List.eq_nil_or_concat' (text.splitOn '\n')).resolve_left
    (List.splitOn_ne_nil '\n' text)
  refine ⟨early, last, parts, ?_⟩
  rw [lines, splitLines, parts, List.dropLast_concat, List.getLast?_concat]
  cases last with
  | nil => exact (List.append_nil _).symm
  | cons => rfl

end Text

namespace Source

open Text (dropReturn)

namespace Feed

theorem meaningful_append (feed next : Feed) :
    (feed ++ next).meaningful = feed.meaningful ++ next.meaningful := by
  obtain ⟨lines, error⟩ := feed
  cases error with
  | some error => rfl
  | none => simp [meaningful, append_def, append]

end Feed

variable {files : FileAccess} {splice : String → Except ParseFault Feed} {origin : Origin}

theorem spliceLines_append (first second : List (Except FileFault (List Char))) (read : Nat) :
    spliceLines files splice origin read (first ++ second) =
      spliceLines files splice origin read first ++
        spliceLines files splice origin (read + first.length) second := by
  induction first generalizing read with
  | nil => rfl
  | cons line first ih =>
    cases line with
    | error reason => rfl
    | ok text =>
      rw [List.cons_append, spliceLines_cons, spliceLines_cons, ih, List.length_cons,
        Feed.append_assoc, Nat.add_right_comm, Nat.add_assoc]

theorem meaningful_spliceLine_congr {first second : List Char} (same : SameMeaning first second)
    (number : Nat) :
    (spliceLine files splice origin number first).meaningful =
      (spliceLine files splice origin number second).meaningful := by
  cases named : includeTargets? second with
  | none =>
    rw [spliceLine_of_plain named, spliceLine_of_plain (same.targets.trans named)]
    simp [Feed.meaningful, Feed.single, same.text]
  | some targets =>
    rw [spliceLine_eq, spliceLine_eq, same.targets, named]
    cases targets <;> rfl

/-- A line means the same without the return at its end. -/
theorem meaningful_spliceLine_dropReturn (text : List Char) (number : Nat) :
    (spliceLine files splice origin number (dropReturn text)).meaningful =
      (spliceLine files splice origin number text).meaningful :=
  meaningful_spliceLine_congr (sameMeaning_dropReturn text) number

theorem spliceLines_singleton (text : List Char) (read : Nat) :
    spliceLines files splice origin read [.ok text] =
      spliceLine files splice origin (read + 1) text :=
  Feed.append_empty _

/-- The last line of a text is left out if it is empty. -/
theorem meaningful_last (last : List Char) (read : Nat) :
    (spliceLines files splice origin read
        ((if last.isEmpty then [] else [last]).map .ok)).meaningful =
      (spliceLine files splice origin (read + 1) last).meaningful := by
  cases last with
  | nil => rfl
  | cons c rest => exact congrArg Feed.meaningful (spliceLines_singleton _ read)

/-- The feed of the lines of a text, counted from the one behind the first `read`. -/
def spliceFrom (files : FileAccess) (dir : String) (read : Nat) (text : List Char) : Feed :=
  spliceLines files (spliceFile files []) ⟨memoryName, dir, memoryName⟩ read
    ((Text.lines text).map .ok)

theorem ofText_eq_spliceFrom (files : FileAccess) (text : List Char) (dir : String) :
    Feed.ofText files text dir = spliceFrom files dir 0 text :=
  ofText_eq_spliceText files text dir

/-- What a text without a line feed means. -/
theorem meaningful_spliceFrom_of_line {line : List Char} (oneLine : '\n' ∉ line) (dir : String)
    (read : Nat) :
    (spliceFrom files dir read line).meaningful =
      (spliceLine files (spliceFile files []) ⟨memoryName, dir, memoryName⟩ (read + 1)
        line).meaningful := by
  obtain ⟨early, last, parts, lines⟩ := Text.exists_lines_eq line
  rw [List.splitOn_eq_singleton oneLine] at parts
  obtain ⟨rfl, alone⟩ : [] = early ∧ [line] = [last] := List.append_inj' parts rfl
  obtain rfl := List.singleton_inj.mp alone
  rw [spliceFrom, lines, List.map_nil, List.nil_append, meaningful_last]

/-- What two texts mean when they are joined by a line feed. -/
theorem meaningful_spliceFrom_join (first second : List Char) (dir : String) (read : Nat) :
    (spliceFrom files dir read (first ++ '\n' :: second)).meaningful =
      (spliceFrom files dir read first).meaningful ++
        (spliceFrom files dir (read + (1 + first.count '\n')) second).meaningful := by
  obtain ⟨early, last, parts, firstLines⟩ := Text.exists_lines_eq first
  have counted : 1 + first.count '\n' = early.length + 1 := by
    rw [← length_splitOn, parts, List.length_append, List.length_singleton]
  rw [spliceFrom, spliceFrom, spliceFrom, Text.lines_append_feed, firstLines, parts, counted]
  simp only [List.map_append, List.map_cons, List.map_nil, spliceLines_append,
    Feed.meaningful_append, meaningful_last, spliceLines_singleton,
    meaningful_spliceLine_dropReturn, List.length_append, List.length_map, List.length_cons,
    List.length_nil, Nat.zero_add, Nat.add_assoc]

/-- What two texts mean when they are joined by a line feed, from the first line on. -/
theorem meaningful_join (files : FileAccess) (first second : List Char) (dir : String) :
    (Feed.ofText files (first ++ '\n' :: second) dir).meaningful =
      (Feed.ofText files first dir).meaningful ++
        (spliceFrom files dir (1 + first.count '\n') second).meaningful := by
  have joined := @meaningful_spliceFrom_join files first second dir 0
  rwa [Nat.zero_add, ← ofText_eq_spliceFrom, ← ofText_eq_spliceFrom] at joined

/-- What may stand in front of a whole line of a text, and what behind it. -/
structure AroundLine (before after : List Char) : Prop where
  starts : before = [] ∨ before.getLast? = some '\n'
  ends : after = [] ∨ ['\n'] <+: after ∨ ['\r', '\n'] <+: after

private theorem meaningful_in_front_of_feed {first second : List Char}
    (same : SameMeaning first second) (firstLine : '\n' ∉ first) (secondLine : '\n' ∉ second)
    (rest : List Char) (dir : String) (read : Nat) :
    (spliceFrom files dir read (first ++ '\n' :: rest)).meaningful =
      (spliceFrom files dir read (second ++ '\n' :: rest)).meaningful := by
  rw [meaningful_spliceFrom_join, meaningful_spliceFrom_join,
    meaningful_spliceFrom_of_line firstLine, meaningful_spliceFrom_of_line secondLine,
    meaningful_spliceLine_congr same, List.count_eq_zero.mpr firstLine,
    List.count_eq_zero.mpr secondLine]

/-- A line of a text may be replaced by one with the same meaning. -/
theorem meaningful_replace_line {first second before after : List Char}
    (same : SameMeaning first second) (firstLine : '\n' ∉ first) (secondLine : '\n' ∉ second)
    (around : AroundLine before after) (dir : String) :
    (Feed.ofText files (before ++ first ++ after) dir).meaningful =
      (Feed.ofText files (before ++ second ++ after) dir).meaningful := by
  have fromLine (read : Nat) : (spliceFrom files dir read (first ++ after)).meaningful =
      (spliceFrom files dir read (second ++ after)).meaningful := by
    obtain rfl | ⟨rest, rfl⟩ | ⟨rest, rfl⟩ := around.ends
    · rw [List.append_nil, List.append_nil, meaningful_spliceFrom_of_line firstLine,
        meaningful_spliceFrom_of_line secondLine, meaningful_spliceLine_congr same]
    · exact meaningful_in_front_of_feed same firstLine secondLine rest dir read
    · have returned : SameMeaning (first ++ ['\r']) (second ++ ['\r']) :=
        (sameMeaning_append_return first).trans
          (same.trans (sameMeaning_append_return second).symm)
      simpa using meaningful_in_front_of_feed returned (by simpa using firstLine)
        (by simpa using secondLine) rest dir read
  rw [List.append_assoc, List.append_assoc]
  obtain rfl | ends := around.starts
  · simpa only [ofText_eq_spliceFrom, List.nil_append] using fromLine 0
  · obtain ⟨early, rfl⟩ := List.getLast?_eq_some_iff.mp ends
    rw [List.append_assoc, List.append_assoc, List.singleton_append, List.singleton_append,
      meaningful_join, meaningful_join, fromLine]

end Source

/-! Lines counted in another way. -/

def Location.renumber (change : Nat → Nat) (location : Location) : Location :=
  { location with line := change location.line }

def ParseError.renumber (change : Nat → Nat) (error : ParseError) : ParseError :=
  { error with location := error.location.map (Location.renumber change) }

namespace Source

def Line.renumber (change : Nat → Nat) (line : Line) : Line :=
  { line with number := change line.number }

namespace Feed

def map (changeLine : Line → Line) (changeError : ParseError → ParseError) (feed : Feed) : Feed :=
  { lines := feed.lines.map changeLine
    error := feed.error.map changeError }

theorem map_append (changeLine : Line → Line) (changeError : ParseError → ParseError)
    (feed next : Feed) :
    (feed ++ next).map changeLine changeError =
      feed.map changeLine changeError ++ next.map changeLine changeError := by
  obtain ⟨lines, error⟩ := feed
  cases error with
  | some error => rfl
  | none => simp [map, append_def, append]

theorem map_concat (changeLine : Line → Line) (changeError : ParseError → ParseError)
    (feeds : List Feed) :
    (concat feeds).map changeLine changeError =
      concat (feeds.map (map changeLine changeError)) := by
  induction feeds with
  | nil => rfl
  | cons feed feeds ih => exact (map_append _ _ _ _).trans (congrArg _ ih)

def renumber (change : Nat → Nat) (feed : Feed) : Feed :=
  { lines := feed.lines.map (Line.renumber change)
    error := feed.error.map (ParseError.renumber change) }

theorem renumber_append (change : Nat → Nat) (feed next : Feed) :
    (feed ++ next).renumber change = feed.renumber change ++ next.renumber change :=
  map_append _ _ feed next

theorem renumber_concat (change : Nat → Nat) (feeds : List Feed) :
    (concat feeds).renumber change = concat (feeds.map (renumber change)) :=
  map_concat _ _ feeds

theorem meaningful_renumber (change : Nat → Nat) (feed : Feed) :
    (feed.renumber change).meaningful = feed.meaningful.renumber change := by
  simp only [meaningful, renumber, List.filter_map, List.map_map]
  rfl

def unnumbered (feed : Feed) : Feed := feed.renumber fun _ => 0

theorem unnumbered_append (feed next : Feed) :
    (feed ++ next).unnumbered = feed.unnumbered ++ next.unnumbered :=
  renumber_append _ feed next

theorem unnumbered_concat (feeds : List Feed) :
    (concat feeds).unnumbered = concat (feeds.map unnumbered) :=
  renumber_concat _ feeds

end Feed

variable {files : FileAccess} {splice : String → Except ParseFault Feed} {origin : Origin}

theorem unnumbered_spliceLine (text : List Char) (number other : Nat) :
    (spliceLine files splice origin number text).unnumbered =
      (spliceLine files splice origin other text).unnumbered := by
  rw [spliceLine_eq, spliceLine_eq]
  split
  · rfl
  · rfl
  · split
    · rfl
    · rw [Feed.unnumbered_concat, Feed.unnumbered_concat, List.map_map, List.map_map]
      congr 1
      refine List.map_congr_left fun path _ => ?_
      rw [Function.comp_apply, Function.comp_apply]
      cases splice path <;> rfl

/-- The numbers are all that depends on where the count starts. -/
theorem unnumbered_spliceLines (lines : List (Except FileFault (List Char))) (read other : Nat) :
    (spliceLines files splice origin read lines).unnumbered =
      (spliceLines files splice origin other lines).unnumbered := by
  induction lines generalizing read other with
  | nil => rfl
  | cons line rest ih =>
    cases line with
    | error reason => rfl
    | ok text =>
      rw [spliceLines_cons, spliceLines_cons, Feed.unnumbered_append, Feed.unnumbered_append,
        unnumbered_spliceLine text (read + 1) (other + 1), ih (read + 1) (other + 1)]

/-- Where nothing is included, all lines are counted on. -/
theorem spliceLines_add {texts : List (List Char)}
    (plain : ∀ text ∈ texts, includeTargets? text = none) (read more : Nat) :
    spliceLines files splice origin (read + more) (texts.map .ok) =
      (spliceLines files splice origin read (texts.map .ok)).renumber (· + more) := by
  induction texts generalizing read with
  | nil => rfl
  | cons text texts ih =>
    rw [List.forall_mem_cons] at plain
    rw [List.map_cons, spliceLines_cons, spliceLines_cons, spliceLine_of_plain plain.1,
      spliceLine_of_plain plain.1, Feed.renumber_append, ← ih plain.2, Nat.add_right_comm]
    rfl

theorem unnumbered_spliceFrom (dir : String) (read : Nat) (text : List Char) :
    (spliceFrom files dir read text).meaningful.unnumbered =
      (Feed.ofText files text dir).meaningful.unnumbered := by
  rw [ofText_eq_spliceFrom, Feed.unnumbered, Feed.unnumbered, ← Feed.meaningful_renumber,
    ← Feed.meaningful_renumber]
  exact congrArg Feed.meaningful (unnumbered_spliceLines _ read 0)

theorem spliceFrom_of_plain {text : List Char}
    (plain : ∀ line ∈ Text.lines text, includeTargets? line = none) (dir : String) (read : Nat) :
    (spliceFrom files dir read text).meaningful =
      (Feed.ofText files text dir).meaningful.renumber (· + read) := by
  rw [ofText_eq_spliceFrom, ← Feed.meaningful_renumber, spliceFrom, spliceFrom,
    ← spliceLines_add plain 0 read, Nat.zero_add]

end Source

end DoubleEntry

import DoubleEntry.Proofs.Source.Splicing
import DoubleEntry.Proofs.Text.Trimming

/-! The lines of a journal as texts. Each is the text of one line, whatever file it comes from, and
without `include` lines a text held in memory gives its own lines. -/

namespace DoubleEntry

theorem not_mem_of_mem_splitOn {α : Type} [BEq α] [LawfulBEq α] {mark : α} {text part : List α}
    (member : part ∈ text.splitOn mark) : mark ∉ part := by
  induction text generalizing part with
  | nil =>
    rw [List.splitOn_nil, List.mem_singleton] at member
    rw [member]
    exact List.not_mem_nil
  | cons c rest ih =>
    rw [List.splitOn_cons_eq_if_modifyHead] at member
    split at member
    · rcases List.mem_cons.mp member with rfl | later
      · exact List.not_mem_nil
      · exact ih later
    case isFalse other =>
      have nonempty := List.splitOn_ne_nil mark rest
      cases parts : rest.splitOn mark with
      | nil => exact absurd parts nonempty
      | cons first parts' =>
        rw [parts, List.modifyHead_cons] at member
        rw [parts] at ih
        rcases List.mem_cons.mp member with rfl | later
        · have apart : c ≠ mark := by simpa using other
          simp [ih (List.mem_cons_self ..), Ne.symm apart]
        · exact ih (List.mem_cons_of_mem _ later)

namespace Text

/-- A line has no line feed in it. -/
theorem not_mem_of_mem_splitLines {α : Type} [BEq α] [LawfulBEq α] {feed ret : α}
    {text line : List α} (member : line ∈ splitLines feed ret text) : feed ∉ line := by
  have ended : ∀ line ∈ (text.splitOn feed).dropLast.map
      (fun line => if line.getLast?.any (· == ret) then line.dropLast else line), feed ∉ line := by
    intro line member
    obtain ⟨part, inside, rfl⟩ := List.mem_map.mp member
    have without := not_mem_of_mem_splitOn (List.dropLast_subset _ inside)
    split
    · exact fun found => without (List.dropLast_subset _ found)
    · exact without
  unfold splitLines at member
  dsimp only at member
  split at member
  · exact ended line member
  · exact ended line member
  case h_3 last _ lastPart =>
    rcases List.mem_append.mp member with early | late
    · exact ended line early
    · rw [List.mem_singleton.mp late]
      exact not_mem_of_mem_splitOn (List.mem_of_mem_getLast? lastPart)

end Text

/-- A line feed is encoded as itself. -/
theorem not_mem_of_decodeText? {data : List UInt8} {text : String}
    (decoded : decodeText? data = some text) (without : 10 ∉ data) : '\n' ∉ text.toList := by
  intro member
  unfold decodeText? String.fromUTF8? at decoded
  split at decoded
  case isFalse => cases decoded
  case isTrue valid =>
    have bytes : text.toList.flatMap String.utf8EncodeChar = data := by
      have encoded : text.toList.utf8Encode = ⟨data.toArray⟩ := by
        rw [String.utf8Encode_toList, ← Option.some.inj decoded]
        rfl
      rw [List.utf8Encode] at encoded
      have arrays := congrArg ByteArray.data encoded
      rw [List.data_toByteArray] at arrays
      simpa using congrArg Array.toList arrays
    have inside : (10 : UInt8) ∈ text.toList.flatMap String.utf8EncodeChar :=
      List.mem_flatMap.mpr ⟨'\n', member, by decide⟩
    exact without (bytes ▸ inside)

theorem not_mem_of_mem_entryLines {entry : Entry} {text : List Char}
    (member : .ok text ∈ entry.lines) : '\n' ∉ text := by
  cases entry with
  | directory =>
    rw [Entry.lines, List.mem_singleton] at member
    cases member
  | file data =>
    obtain ⟨line, inside, same⟩ := List.mem_map.mp member
    have without := Text.not_mem_of_mem_splitLines inside
    split at same
    case h_1 text' decoded =>
      rw [← Except.ok.inj same]
      exact not_mem_of_decodeText? decoded without
    case h_2 => cases same

namespace Source

namespace Feed

/-- A property of feeds without lines that two feeds keep when one follows the other. -/
structure Additive (holds : Feed → Prop) : Prop where
  silent : ∀ feed, feed.lines = [] → holds feed
  append : ∀ feed next, holds feed → holds next → holds (feed ++ next)

theorem Additive.concat {holds : Feed → Prop} (additive : Additive holds) {feeds : List Feed}
    (each : ∀ feed ∈ feeds, holds feed) : holds (concat feeds) := by
  induction feeds with
  | nil => exact additive.silent _ rfl
  | cons feed feeds ih =>
    rw [List.forall_mem_cons] at each
    exact additive.append _ _ each.1 (ih each.2)

theorem additive_forall (holds : Line → Prop) :
    Additive fun feed => ∀ line ∈ feed.lines, holds line where
  silent feed none line member := by simp [none] at member
  append feed next first second line member := by
    rcases lines_append feed next with cut | whole
    · exact first line (cut ▸ member)
    · rw [whole, List.mem_append] at member
      exact member.elim (first line) (second line)

def All (holds : List Char → Prop) (feed : Feed) : Prop := ∀ line ∈ feed.lines, holds line.text

variable {holds : List Char → Prop}

theorem additive_all : Additive (All holds) := additive_forall fun line => holds line.text

theorem all_single {line : Line} (text : holds line.text) : All holds (single line) := by
  intro line' member
  rw [List.mem_singleton.mp member]
  exact text

end Feed

variable {files : FileAccess} {holds : List Char → Prop}

theorem all_included {location : Location} {feed : Except ParseFault Feed}
    (spliced : ∀ lines, feed = .ok lines → lines.All holds) :
    (included location feed).All holds := by
  cases feed with
  | error => exact Feed.additive_all.silent _ rfl
  | ok feed => exact spliced feed rfl

theorem all_spliceLines {splice : String → Except ParseFault Feed} {origin : Origin}
    {lines : List (Except FileFault (List Char))}
    (own : ∀ text, .ok text ∈ lines → holds text)
    (spliced : ∀ path feed, splice path = .ok feed → feed.All holds) (read : Nat) :
    (spliceLines files splice origin read lines).All holds := by
  induction lines generalizing read with
  | nil => exact Feed.additive_all.silent _ rfl
  | cons line rest ih =>
    cases line with
    | error reason => exact Feed.additive_all.silent _ rfl
    | ok text =>
      rw [spliceLines_cons, spliceLine_eq]
      refine Feed.additive_all.append _ _ ?_
        (ih (fun text member => own text (List.mem_cons_of_mem _ member)) _)
      split
      · exact Feed.all_single (own text (List.mem_cons_self ..))
      · exact Feed.additive_all.silent _ rfl
      · split
        · exact Feed.additive_all.silent _ rfl
        · refine Feed.additive_all.concat fun feed member => ?_
          obtain ⟨path, _, rfl⟩ := List.mem_map.mp member
          exact all_included (spliced path)

theorem all_spliceFile
    (own : ∀ place lines, files.linesAt place = .ok lines → ∀ text, .ok text ∈ lines → holds text)
    (opened : List Place) (path : String) {feed : Feed}
    (spliced : spliceFile files opened path = .ok feed) : feed.All holds := by
  fun_induction spliceFile files opened path generalizing feed with
  | case1 => cases spliced
  | case2 => cases spliced
  | case3 => cases spliced
  | case4 opened path place located closed lines readable less origin =>
    rename_i ih
    rw [← Except.ok.inj spliced]
    exact all_spliceLines (own place lines readable) (fun path feed => ih path) 0

/-- No line of a journal in a file system has a line feed in it. -/
theorem oneLine_ofText (fs : FileSystem) (text : List Char) (dir : String) :
    (Feed.ofText fs text dir).All fun line => '\n' ∉ line := by
  rw [ofText_eq_spliceText]
  refine all_spliceLines (fun line member => ?_) (fun path feed => ?_) 0
  · obtain ⟨line', inside, same⟩ := List.mem_map.mp member
    rw [← Except.ok.inj same]
    exact Text.not_mem_of_mem_splitLines inside
  · refine all_spliceFile (fun place lines readable line member => ?_) [] path
    change fs.linesAt place = .ok lines at readable
    unfold FileSystem.linesAt at readable
    split at readable
    · cases readable
    · rw [← Except.ok.inj readable] at member
      exact not_mem_of_mem_entryLines member

/-! A text in which nothing is included. -/

theorem texts_spliceLines {splice : String → Except ParseFault Feed} {origin : Origin}
    {texts : List (List Char)} (plain : ∀ text ∈ texts, includeTargets? text = none) (read : Nat) :
    (spliceLines files splice origin read (texts.map .ok)).lines.map Line.text = texts ∧
      (spliceLines files splice origin read (texts.map .ok)).error = none := by
  induction texts generalizing read with
  | nil => exact ⟨rfl, rfl⟩
  | cons text texts ih =>
    rw [List.forall_mem_cons] at plain
    obtain ⟨lines, error⟩ := ih plain.2 (read + 1)
    have step : spliceLines files splice origin read ((text :: texts).map .ok) =
        .single ⟨origin.name, read + 1, text⟩ ++
          spliceLines files splice origin (read + 1) (texts.map .ok) := by
      rw [List.map_cons, spliceLines_cons, spliceLine_of_plain plain.1]
    rw [step]
    exact ⟨congrArg (text :: ·) lines, error⟩

theorem texts_ofText {text : List Char} (dir : String)
    (plain : ∀ line ∈ Text.lines text, includeTargets? line = none) :
    (Feed.ofText files text dir).lines.map Line.text = Text.lines text ∧
      (Feed.ofText files text dir).error = none := by
  rw [ofText_eq_spliceText]
  exact texts_spliceLines plain 0

def meaningfulTexts (texts : List (List Char)) : List (List Char) :=
  (texts.map stripComment).filter fun text => !text.isEmpty

theorem texts_meaningful (feed : Feed) :
    feed.meaningful.lines.map Line.text = meaningfulTexts (feed.lines.map Line.text) := by
  simp only [Feed.meaningful, meaningfulTexts, List.filter_map, List.map_map]
  rfl

/-- A line that starts with a digit names no files. -/
theorem includeTargets?_of_isDigit {c : Char} {rest : List Char} (digit : c.isDigit = true) :
    includeTargets? (c :: rest) = none := by
  have solid := Text.not_isBlank_of_isDigit digit
  have words : Text.words (c :: rest) =
      (c :: (Text.splitWords rest).1) :: (Text.splitWords rest).2 := by
    simp [Text.words, Text.splitWords, solid]
  have other (keyword : String) (first : Char) (starts : keyword.toList.head? = some first)
      (noDigit : first.isDigit = false) :
      ((c :: (Text.splitWords rest).1) != keyword.toList) = true := by
    rw [bne_iff_ne]
    intro same
    rw [← same] at starts
    rw [← Option.some.inj starts, digit] at noDigit
    cases noDigit
  have indented : ¬ (c :: rest).head?.any Text.isBlank = true := by simp [solid]
  rw [includeTargets?, if_neg indented, words]
  refine if_pos ?_
  rw [Bool.and_eq_true]
  exact ⟨other "include" 'i' rfl rfl, other "!include" '!' rfl rfl⟩

end Source

namespace Text

/-- Lines that are joined come apart again. -/
theorem lines_intercalate {lines : List (List Char)} (feeds : ∀ line ∈ lines, '\n' ∉ line)
    (rets : ∀ line ∈ lines, line.getLast? ≠ some '\r')
    (last : ∀ line ∈ lines.getLast?, line ≠ []) :
    Text.lines (['\n'].intercalate lines) = lines := by
  rcases List.eq_nil_or_concat lines with rfl | ⟨early, late, rfl⟩
  · rfl
  · rw [List.concat_eq_append] at *
    have kept : early.map (fun line =>
        if line.getLast?.any (· == '\r') then line.dropLast else line) = early := by
      conv_rhs => rw [← List.map_id early]
      refine List.map_congr_left fun line member => ?_
      have other := rets line (List.mem_append_left _ member)
      have notRet : line.getLast?.any (· == '\r') = false := by
        cases ends : line.getLast? with
        | none => rfl
        | some c => simpa [ends] using other
      simp [notRet]
    rw [Text.lines, splitLines, List.splitOn_intercalate '\n' feeds (by simp),
      List.dropLast_concat, kept, List.getLast?_concat]
    cases late with
    | nil => exact absurd rfl (last [] (by simp))
    | cons => rfl

end Text

end DoubleEntry

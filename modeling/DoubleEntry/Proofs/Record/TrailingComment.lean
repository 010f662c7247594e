import DoubleEntry.Proofs.Record.Joining

/-! A comment at the end of a line. The text of a line is read without it, whatever its marker. The
targets of an `include` line only end in front of a semicolon or a number sign, so with another
marker the words of a comment are targets as well. -/

namespace DoubleEntry

open Source (isCommentMarker takesMore withComment includeTargets? targetsOf AroundLine Line Feed)

/-! Access to one file, which every path and every pattern leads to. -/

/-- The directive on the one line of the file. -/
def dollarLine : List Char := "N $".toList

def FileAccess.oneFile : FileAccess where
  locate _ := .ok ["dollar"]
  linesAt place := if place = ["dollar"] then .ok [.ok dollarLine] else .error .notFound
  expand? path := some [path]
  isFile _ := true
  places := [["dollar"]]
  mem_places := by
    intro place lines opened
    split at opened
    case isTrue here => exact List.mem_singleton.mpr here
    case isFalse => cases opened

/-- The lines of a feed that takes the file in once for each of some paths. -/
def dollarLines (paths : List String) : List Line :=
  paths.map fun path => ⟨path, 1, dollarLine⟩

namespace Source

theorem expandTargets_oneFile (dir : String) (targets : List String) :
    expandTargets .oneFile dir targets = .ok (targets.map (Path.join dir)) := by
  have each (path : String) : expandTarget .oneFile path = pure [path] := by
    unfold expandTarget
    split
    · rfl
    · simp [FileAccess.oneFile, Path.sort]
      rfl
  simp only [expandTargets, each, List.mapM_pure, pure_bind]
  rw [← List.flatMap_def, ← List.map_eq_flatMap]
  rfl

theorem spliceFile_oneFile (path : String) :
    spliceFile .oneFile [] path = .ok (.single ⟨path, 1, dollarLine⟩) := by
  rw [spliceFile]
  rfl

theorem concat_included_oneFile (location : Location) (paths : List String) :
    Feed.concat (paths.map fun path => included location (spliceFile .oneFile [] path)) =
      { lines := dollarLines paths } := by
  induction paths with
  | nil => rfl
  | cons path paths ih =>
    rw [List.map_cons, spliceFile_oneFile]
    exact congrArg (Feed.append (.single ⟨path, 1, dollarLine⟩)) ih

theorem spliceLine_oneFile {line : List Char} {target : String} {targets : List String}
    (named : includeTargets? line = some (target :: targets)) (origin : Origin) (number : Nat) :
    spliceLine .oneFile (spliceFile .oneFile []) origin number line =
      { lines := dollarLines ((target :: targets).map (Path.join origin.dir)) } := by
  rw [spliceLine_eq, named]
  dsimp only
  rw [expandTargets_oneFile]
  exact concat_included_oneFile _ _

theorem meaningful_dollarLines (paths : List String) :
    Feed.meaningful { lines := dollarLines paths } = { lines := dollarLines paths } := by
  have stripped : stripComment dollarLine = dollarLine := by decide
  have solid : dollarLine ≠ [] := by decide
  simp [Feed.meaningful, dollarLines, Function.comp_def, stripped, solid, List.filter_eq_self]

end Source

theorem gather_dollarLines (paths : List String) :
    gather none none (dollarLines paths) =
      { directives := paths.map fun path => .between (.ignoreSymbol "$") path 1 1 } := by
  induction paths with
  | nil => rfl
  | cons path paths ih =>
    have passed : passLine none ⟨path, 1, dollarLine⟩ =
        .ok ([.between (.ignoreSymbol "$") path 1 1], none) := by rfl
    rw [dollarLines, List.map_cons, gather_of_passLine passed, ← dollarLines, ih]
    rfl

theorem parse_line {line : String} (oneLine : '\n' ∉ line.toList) (files : FileAccess) :
    files.parse line = (Reading.ofFeed (Source.spliceLine files (Source.spliceFile files [])
      ⟨"<memory>", ".", "<memory>"⟩ 1 line.toList).meaningful).toExcept := by
  rw [FileAccess.parse, Source.ofText_eq_spliceFrom, Source.meaningful_spliceFrom_of_line oneLine]
  rfl

/-- An `include` line gives the directive of the file once for each of its targets. -/
theorem parse_oneFile {line : String} (oneLine : '\n' ∉ line.toList) {target : String}
    {targets : List String} (named : includeTargets? line.toList = some (target :: targets)) :
    FileAccess.oneFile.parse line = .ok (((target :: targets).map (Path.join ".")).map fun path =>
      .between (.ignoreSymbol "$") path 1 1) := by
  rw [parse_line oneLine, Source.spliceLine_oneFile named, Source.meaningful_dollarLines,
    ofFeed_eq_gather, gather_dollarLines]
  rfl

theorem parse_oneFile_of_nil {line : String} (oneLine : '\n' ∉ line.toList)
    (named : includeTargets? line.toList = some []) :
    FileAccess.oneFile.parse line =
      .error ⟨.incompleteDirective .includeFile, some ⟨"<memory>", 1⟩⟩ := by
  rw [parse_line oneLine, Source.spliceLine_eq, named, ofFeed_eq_gather]
  rfl

/-- With more targets more is read. -/
theorem parse_oneFile_ne {line longer : String} (oneLine : '\n' ∉ line.toList)
    (longerLine : '\n' ∉ longer.toList) {targets more : List String}
    (named : includeTargets? line.toList = some targets)
    (longerNamed : includeTargets? longer.toList = some (targets ++ more)) (some_ : more ≠ []) :
    FileAccess.oneFile.parse longer ≠ FileAccess.oneFile.parse line := by
  intro same
  obtain ⟨target, later, split⟩ := List.exists_cons_of_ne_nil
    (List.append_ne_nil_of_right_ne_nil targets some_)
  rw [parse_oneFile longerLine (split ▸ longerNamed)] at same
  cases targets with
  | nil =>
    rw [parse_oneFile_of_nil oneLine named] at same
    cases same
  | cons first rest =>
    rw [parse_oneFile oneLine named, ← split] at same
    have lengths := congrArg List.length (Except.ok.inj same)
    simp [some_] at lengths

/-- A comment behind a blank at the end of any line leaves what is read as it is, over whatever
files, except where its words are taken for more targets of an `include` line. -/
theorem trailing_comment_harmless_iff {line comment : String} {marker : Char}
    (marks : isCommentMarker marker = true) (oneLine : '\n' ∉ line.toList)
    (commentLine : '\n' ∉ comment.toList) :
    (∀ (files : FileAccess) (before after : String), AroundLine before.toList after.toList →
      files.parse (before ++ (line ++ " " ++ .singleton marker ++ comment) ++ after) =
        files.parse (before ++ line ++ after)) ↔
      (takesMore line.toList = true → marker = ';' ∨ marker = '#') := by
  have text : (line ++ " " ++ .singleton marker ++ comment).toList =
      withComment line.toList marker comment.toList := by
    simp [withComment]
  have space : '\n' ≠ marker := by
    rintro rfl
    cases marks
  have longerLine : '\n' ∉ withComment line.toList marker comment.toList := by
    simp [withComment, oneLine, commentLine, space]
  constructor
  · intro harmless more
    by_contra other
    have extra := mt (Source.targetsOf_comment_eq_nil_iff marks comment.toList).mp other
    obtain ⟨words, included, _⟩ := (Option.any_eq_true _ _).mp more
    have named : includeTargets? line.toList = some (targetsOf words) := by
      rw [Source.includeTargets?_eq, included]
      rfl
    refine parse_oneFile_ne oneLine (text ▸ longerLine) named ?_ extra ?_
    · rw [text, Source.includeTargets?_withComment, named, more]
      rfl
    · simpa using harmless .oneFile "" "" ⟨.inl rfl, .inl rfl⟩
  · intro harmless files before after around
    have same := Source.sameMeaning_withComment marks harmless comment.toList
    have kept : (Source.Feed.ofText files _ ".").meaningful = _ :=
      Source.meaningful_replace_line same longerLine oneLine around "."
    rw [← text, ← String.toList_append, ← String.toList_append, ← String.toList_append,
      ← String.toList_append] at kept
    rw [FileAccess.parse, FileAccess.parse, kept]

/-- A semicolon ends the targets of an `include` line, so a comment behind it is none of them. -/
theorem trailing_comment_harmless_tea :
    takesMore "include shop".toList = true ∧
      (∀ (files : FileAccess) (before after : String),
        AroundLine before.toList after.toList →
        files.parse (before ++ "include shop ; tea" ++ after) =
          files.parse (before ++ "include shop" ++ after)) ∧
      FileSystem.teaShop.access.parse "include shop ; tea" =
        FileSystem.teaShop.access.parse "include shop" ∧
      (FileSystem.teaShop.access.parse "include shop").map lineSpans = .ok [(1, 3)] := by
  have spelled : "include shop" ++ " " ++ .singleton ';' ++ " tea" = "include shop ; tea" := by
    decide +kernel
  have harmless := (@trailing_comment_harmless_iff "include shop" " tea" ';' (by decide)
    (by decide) (by decide)).mpr fun _ => .inl rfl
  rw [spelled] at harmless
  refine ⟨by decide, harmless, ?_, ?_⟩
  · exact harmless _ "" "" ⟨.inl rfl, .inl rfl⟩
  · rw [← parseText_eq_parse, parseText_eq_gather]
    decide +kernel

/-- A percent sign does not, so it is the name of a file. -/
theorem trailing_comment_tea_ne :
    isCommentMarker '%' = true ∧
      (FileSystem.teaShop.access.parse "include shop").map lineSpans = .ok [(1, 3)] ∧
      FileSystem.teaShop.access.parse "include shop % tea" =
        .error ⟨.unreadable "./%" .notFound, some ⟨"<memory>", 1⟩⟩ := by
  refine ⟨by decide, ?_, ?_⟩
  · rw [← parseText_eq_parse, parseText_eq_gather]
    decide +kernel
  · rw [← parseText_eq_parse, parseText_eq_gather]
    decide +kernel

end DoubleEntry

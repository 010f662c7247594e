import DoubleEntry.Proofs.Source.Joining
import DoubleEntry.Proofs.Source.Targets

/-! A directory under another name. What a journal includes from inside its directory depends on
what is in the directory: the feed is that of the directory alone, with other paths in front of its
sources, as long as the path of the directory has no character that is special in a pattern. -/

namespace DoubleEntry

/-- The same line of a source, with the path from the root of everything. -/
def Location.outer (place : Place) (location : Location) : Location :=
  { location with source := place.outer location.source }

def ParseError.outer (place : Place) (error : ParseError) : ParseError :=
  { fault := error.fault.outer place, location := error.location.map (Location.outer place) }

namespace Source

open Wildcard (isPattern parts? search staysInside)

def Line.outer (place : Place) (line : Line) : Line :=
  { line with source := place.outer line.source }

def Feed.outer (place : Place) (feed : Feed) : Feed :=
  feed.map (Line.outer place) (ParseError.outer place)

/-- Whether no `include` line names something outside, as seen from the directory of its file. -/
def keepsInside (fs : FileSystem) : Bool :=
  fs.entries.entries.all fun (place, entry) => entry.lines.all fun
    | .error _ => true
    | .ok text => ((includeTargets? text).getD []).all fun target =>
      !Path.isAbsolute target &&
        staysInside (Path.join ("/".intercalate place.dropLast) target)

variable {fs : FileSystem} {place : Place}

theorem ne_empty_of_mem_targets {text : List Char} {targets : List String}
    (named : includeTargets? text = some targets) {target : String} (member : target ∈ targets) :
    target ≠ "" := by
  rw [includeTargets?_eq, Option.map_eq_some_iff] at named
  obtain ⟨words, -, rfl⟩ := named
  obtain ⟨chars, kept, rfl⟩ := List.mem_map.mp member
  have some_ := (List.mem_filter.mp kept).2
  intro empty
  rw [String.ofList_eq_empty_iff] at empty
  simp [empty] at some_

/-- The path of something below a place. -/
theorem path_append {inner : Place} (named : ∀ name ∈ inner, IsName name) :
    Place.path (place ++ inner) = place.along ("/".intercalate inner) := by
  by_cases here : inner = []
  · subst here
    rw [List.append_nil]
    rfl
  · rw [Place.path_of_ne (by simp [here]), Place.along_of_ne _ (intercalate_ne_empty named here),
      Place.text_append, Place.text_eq_intercalate here, String.append_assoc]

theorem path_eq_along {inner : Place} (named : ∀ name ∈ inner, IsName name) :
    inner.path = Place.along [] ("/".intercalate inner) :=
  @path_append [] inner named

theorem SameNames.append {found found' later later' : Except ParseFault (List String)}
    (first : SameNames place found found') (second : SameNames place later later') :
    SameNames place (do return (← found) ++ (← later)) (do return (← found') ++ (← later')) := by
  cases first with
  | failed fault => exact .failed fault
  | named tails inside =>
    cases second with
    | failed fault => exact .failed fault
    | named more inside' =>
      have both : SameNames place _ _ :=
        .named (tails ++ more) (List.forall_mem_append.mpr ⟨inside, inside'⟩)
      rwa [List.map_append, List.map_append] at both

theorem sameNames_targets (there : fs.HasDirectory place) (wellNamed : fs.WellNamed)
    (plain : Wildcard.Literal place.text.toList) {dir : Place}
    (named : ∀ name ∈ dir, IsName name) {targets : List String}
    (stay : ∀ target ∈ targets, target ≠ "" ∧ Path.isAbsolute target = false ∧
      staysInside (Path.join ("/".intercalate dir) target) = true) :
    SameNames place (expandTargets fs (Place.path (place ++ dir)) targets)
      (expandTargets (fs.under place) dir.path targets) := by
  induction targets with
  | nil => exact .named [] nofun
  | cons target targets ih =>
    rw [List.forall_mem_cons] at stay
    obtain ⟨nonempty, relative, stays⟩ := stay.1
    have root := (fs.under place).hasDirectory_root
    rw [expandTargets_cons, expandTargets_cons]
    refine .append ?_ (ih stay.2)
    rw [path_append named, path_eq_along named,
      Place.join_along there.names relative (.inr nonempty),
      Place.join_along root.names relative (.inr nonempty)]
    refine sameNames_target there wellNamed plain ?_ (join_ne_empty (.inr nonempty)) stays
    exact isAbsolute_join (inside_intercalate named).relative relative

theorem outer_append (feed next : Feed) :
    (feed ++ next).outer place = feed.outer place ++ next.outer place :=
  Feed.map_append _ _ feed next

theorem outer_concat (feeds : List Feed) :
    (Feed.concat feeds).outer place = .concat (feeds.map (Feed.outer place)) :=
  Feed.map_concat _ _ feeds

/-- What opening a file gives, with the paths from the root of everything. -/
def outerResult (place : Place) : Except ParseFault Feed → Except ParseFault Feed
  | .ok feed => .ok (feed.outer place)
  | .error fault => .error (fault.outer place)

theorem included_outer (location : Location) (result : Except ParseFault Feed) :
    included (location.outer place) (outerResult place result) =
      (included location result).outer place := by
  cases result <;> rfl

/-- Where the lines of a file come from, from the root of everything. `dir` is its directory. -/
def outerOrigin (place dir : Place) (tail path : String) : Origin :=
  ⟨place.along tail, Place.path (place ++ dir), place.outer path⟩

theorem outer_single (dir : Place) (tail path : String) (number : Nat) (text : List Char) :
    Feed.single ⟨(outerOrigin place dir tail path).name, number, text⟩ =
      (Feed.single ⟨Place.along [] tail, number, text⟩).outer place := by
  simp [Feed.outer, Feed.map, Feed.single, Line.outer, outerOrigin, Place.outer_along]

section Lines

variable (there : fs.HasDirectory place) (wellNamed : fs.WellNamed)
  (plain : Wildcard.Literal place.text.toList)
  {splice splice' : String → Except ParseFault Feed}
  (spliced : ∀ tail, Inside tail →
    splice (place.along tail) = outerResult place (splice' (Place.along [] tail)))
  {dir : Place} (named : ∀ name ∈ dir, IsName name)

include there wellNamed plain spliced named

/-- A line of a file, together with what it includes from inside the directory. -/
theorem spliceLine_outer {text : List Char}
    (stay : ∀ targets, includeTargets? text = some targets → ∀ target ∈ targets,
      Path.isAbsolute target = false ∧
        staysInside (Path.join ("/".intercalate dir) target) = true)
    (tail path : String) (number : Nat) :
    spliceLine fs splice (outerOrigin place dir tail path) number text =
      (spliceLine (fs.under place) splice' ⟨Place.along [] tail, dir.path, path⟩ number
        text).outer place := by
  let location : Location := ⟨Place.along [] tail, number⟩
  have moved : (⟨place.along tail, number⟩ : Location) = location.outer place := by
    simp [location, Location.outer, Place.outer_along]
  rw [spliceLine_eq, spliceLine_eq]
  cases names : includeTargets? text with
  | none => exact outer_single dir tail path number text
  | some targets =>
    have inside : ∀ target ∈ targets, target ≠ "" ∧ Path.isAbsolute target = false ∧
        staysInside (Path.join ("/".intercalate dir) target) = true :=
      fun target member => ⟨ne_empty_of_mem_targets names member, stay targets names target member⟩
    have same := sameNames_targets there wellNamed plain named inside
    cases targets with
    | nil =>
      change Feed.failed ⟨_, some ⟨place.along tail, number⟩⟩ = _
      rw [moved]
      rfl
    | cons target targets =>
      simp only [outerOrigin]
      generalize expandTargets fs.access (Place.path (place ++ dir)) (target :: targets) = found
        at same ⊢
      generalize expandTargets (fs.under place).access dir.path (target :: targets) = found'
        at same ⊢
      cases same with
      | failed fault =>
        change Feed.failed ⟨_, some ⟨place.along tail, number⟩⟩ = _
        rw [moved]
        rfl
      | named tails inside =>
        change Feed.concat (List.map (fun path => included ⟨place.along tail, number⟩ _) _) = _
        rw [moved, outer_concat, List.map_map, List.map_map, List.map_map]
        congr 1
        refine List.map_congr_left fun tail' member => ?_
        simp only [Function.comp_apply, spliced tail' (inside tail' member), included_outer]
        rfl

theorem spliceLines_outer {lines : List (Except FileFault (List Char))}
    (stay : ∀ text, .ok text ∈ lines → ∀ targets, includeTargets? text = some targets →
      ∀ target ∈ targets, Path.isAbsolute target = false ∧
        staysInside (Path.join ("/".intercalate dir) target) = true)
    (tail path : String) (read : Nat) :
    spliceLines fs splice (outerOrigin place dir tail path) read lines =
      (spliceLines (fs.under place) splice' ⟨Place.along [] tail, dir.path, path⟩ read
        lines).outer place := by
  induction lines generalizing read with
  | nil => rfl
  | cons line rest ih =>
    cases line with
    | error reason => rfl
    | ok text =>
      rw [spliceLines_cons, spliceLines_cons, outer_append,
        spliceLine_outer there wellNamed plain spliced named (stay text List.mem_cons_self),
        ih fun text member => stay text (List.mem_cons_of_mem _ member)]

end Lines

theorem keepsInside_of_linesAt (keeps : keepsInside fs = true) {inner : Place}
    {lines : List (Except FileFault (List Char))} (readable : fs.linesAt inner = .ok lines)
    {text : List Char} (member : .ok text ∈ lines) {targets : List String}
    (names : includeTargets? text = some targets) {target : String} (one : target ∈ targets) :
    Path.isAbsolute target = false ∧
      staysInside (Path.join ("/".intercalate inner.dropLast) target) = true := by
  rw [FileSystem.linesAt] at readable
  split at readable
  · cases readable
  case h_2 entry found =>
    cases readable
    rw [FileSystem.entryAt?] at found
    split at found
    · cases found
      rw [Entry.lines, List.mem_singleton] at member
      cases member
    · have stored := SortedMap.mem_entries_iff.mpr found
      have each := List.all_eq_true.mp (List.all_eq_true.mp keeps _ stored) _ member
      simp only [names, Option.getD_some] at each
      have kept := List.all_eq_true.mp each target one
      rwa [Bool.and_eq_true, Bool.not_eq_true'] at kept

theorem outer_path {inner : Place} (named : ∀ name ∈ inner, IsName name) :
    place.outer inner.path = Place.path (place ++ inner) := by
  rw [path_eq_along named, Place.outer_along, path_append named]

/-- A file in a directory, opened from the root of everything. -/
theorem spliceFile_outer (there : fs.HasDirectory place) (wellNamed : fs.WellNamed)
    (plain : Wildcard.Literal place.text.toList) (keeps : keepsInside (fs.under place) = true)
    {opened : List Place} (known : ∀ inner ∈ opened, ∀ name ∈ inner, IsName name) {tail : String}
    (inside : Inside tail) :
    spliceFile fs (opened.map (place ++ ·)) (place.along tail) =
      outerResult place (spliceFile (fs.under place) opened (Place.along [] tail)) := by
  have moved {tail : String} (inside : Inside tail) : fs.access.locate (place.along tail) =
      ((fs.under place).access.locate (Place.along [] tail)).map (place ++ ·) :=
    there.resolve_under inside.stays
  have same (here : Place) : fs.access.linesAt (place ++ here) =
      (fs.under place).access.linesAt here := (there.linesAt_under here).symm
  have open_ (here : Place) (opened : List Place) :
      place ++ here ∈ opened.map (place ++ ·) ↔ here ∈ opened := by simp
  generalize given : Place.along [] tail = path
  fun_induction spliceFile (fs.under place) opened path generalizing tail with
  | case1 opened path reason missing =>
    subst given
    rw [spliceFile, moved inside, missing]
    simp [Except.map, outerResult, ParseFault.outer, Place.outer_along]
  | case2 opened path here located again =>
    subst given
    have named := wellNamed.of_resolve_under there inside.stays located
    have chain : (opened.map (place ++ ·)).map Place.path =
        (opened.map Place.path).map place.outer := by
      rw [List.map_map, List.map_map]
      exact List.map_congr_left fun inner member => (outer_path (known inner member)).symm
    rw [spliceFile, moved inside, located]
    simp only [Except.map, dif_pos ((open_ here opened).mpr again), outerResult, ParseFault.outer,
      outer_path named, chain]
  | case3 opened path here located closed reason unreadable =>
    subst given
    rw [spliceFile, moved inside, located]
    simp only [Except.map, dif_neg (mt (open_ here opened).mp closed)]
    split
    case h_1 reason' failed =>
      rw [same, unreadable] at failed
      cases failed
      simp [outerResult, ParseFault.outer, Place.outer_along]
    case h_2 read =>
      rw [same, unreadable] at read
      cases read
  | case4 opened path here located closed lines readable less origin ih =>
    subst given
    have named := wellNamed.of_resolve_under there inside.stays located
    rw [spliceFile, moved inside, located]
    simp only [Except.map, dif_neg (mt (open_ here opened).mp closed)]
    split
    case h_1 failed =>
      rw [same, readable] at failed
      cases failed
    case h_2 lines' read =>
      rw [same, readable] at read
      cases read
      refine congrArg Except.ok ?_
      by_cases top : here = []
      · -- The directory itself is no file, and the one around it is not in it.
        subst top
        obtain rfl : lines = [.error .isDirectory] := (Except.ok.inj readable).symm
        rw [← outer_path named, spliceLines, spliceLines]
        simp [Feed.outer, Feed.map, Feed.failed, ParseError.outer, ParseFault.outer, origin]
      · have deeper : opened.map (place ++ ·) ++ [place ++ here] =
            (opened ++ [here]).map (place ++ ·) := by simp
        have known' : ∀ inner ∈ opened ++ [here], ∀ name ∈ inner, IsName name :=
          List.forall_mem_append.mpr ⟨known, by simpa using named⟩
        rw [List.dropLast_append_of_ne_nil top, ← outer_path named, deeper]
        refine spliceLines_outer there wellNamed plain (fun tail inside => ?_)
          (fun name member => named name (List.dropLast_subset _ member)) ?_ tail here.path 0
        · exact ih (Place.along [] tail) known' inside rfl
        · exact fun text member targets names target one =>
            keepsInside_of_linesAt keeps readable member names one

/-- A directory whose path has no character that is special in a pattern. -/
structure PlainDirectory (fs : FileSystem) (place : Place) : Prop where
  there : fs.HasDirectory place
  wellNamed : fs.WellNamed
  plain : Wildcard.Literal place.text.toList

/-- The feed of a journal in a directory is that of the directory alone. -/
theorem ofFile_outer (directory : PlainDirectory fs place)
    (keeps : keepsInside (fs.under place) = true) {tail : String} (inside : Inside tail) :
    Feed.ofFile fs (place.along tail) =
      ((Feed.ofFile (fs.under place) (Place.along [] tail)).map (Feed.outer place)).mapError
        (ParseError.outer place) := by
  have nothingOpen : ∀ inner ∈ ([] : List Place), ∀ name ∈ inner, IsName name := nofun
  have spliced := spliceFile_outer directory.there directory.wellNamed directory.plain keeps
    nothingOpen inside
  rw [List.map_nil] at spliced
  rw [ofFile_eq_spliceFile, ofFile_eq_spliceFile, spliced]
  cases spliceFile (fs.under place) [] (Place.along [] tail) <;> rfl

/-- Access to nothing, where no text is a pattern. -/
def nothingThere : FileAccess where
  locate _ := .error .notFound
  linesAt _ := .error .notFound
  expand? _ := none
  isFile _ := false
  places := []
  mem_places := nofun

/-- Without wildcards in a target, an `include` line names the one path of the target seen from its
directory, exactly if the path of the directory has no wildcards either. In a directory whose path
has no special character, a target with wildcards names in order the files that are found from the
directory on. And what a journal there includes from inside the directory depends on what is in the
directory alone, so the directory may have any such path. -/
theorem include_resolves_in_directory (dir target : String)
    (relative : Path.isAbsolute target = false) :
    (isPattern target = false →
      ((∀ files : FileAccess, expandTarget files (Path.join dir target) =
        .ok [Path.join dir target]) ↔ isPattern dir = false)) ∧
    (∀ fs place, PlainDirectory fs place → place.path = dir →
      (isPattern target = true →
        expandTarget fs (Path.join dir target) = match parts? target with
          | none => .error (.unreadable (Path.join dir target) .badPattern)
          | some parts => .ok (Path.sort ((search fs (target.toList.getLast? == some '/') parts
              dir).filter fs.isFile))) ∧
      (keepsInside (fs.under place) = true → ∀ tail, Inside tail →
        Feed.ofFile fs (place.along tail) =
          ((Feed.ofFile (fs.under place) (Place.along [] tail)).map (Feed.outer place)).mapError
            (ParseError.outer place))) := by
  refine ⟨fun plain => ?_, ?_⟩
  · have whole : isPattern (Path.join dir target) = isPattern dir := by
      rw [isPattern_join relative, plain, Bool.or_false]
    constructor
    · intro one
      by_contra pattern
      rw [Bool.not_eq_false, ← whole] at pattern
      have named := one nothingThere
      rw [expandTarget_of_isPattern _ pattern] at named
      cases named
    · exact fun literal files => expandTarget_of_not_isPattern files (whole.trans literal)
  · rintro fs place directory rfl
    refine ⟨fun pattern => ?_, fun keeps tail inside => ofFile_outer directory keeps inside⟩
    have nonempty : target ≠ "" := by
      rintro rfl
      cases pattern
    rw [join_path directory.there relative nonempty]
    exact expandTarget_along directory.there directory.plain nonempty pattern

/-- Directories with the same two files: a journal, and one that it includes by a pattern. -/
def shelves (names : List String) : FileSystem :=
  names.foldl (fun fs name =>
    (fs.write ("/" ++ name ++ "/main") (.file "include ye*r\n".toUTF8.data.toList)).write
      ("/" ++ name ++ "/year") (.file "N $\n".toUTF8.data.toList)) (.ofWorkDir [])

theorem include_resolves_in_books :
    PlainDirectory (shelves ["books"]) ["books"] ∧
      (∀ files : FileAccess, expandTarget files "/books/year" = .ok ["/books/year"]) ∧
      expandTarget (shelves ["books"]) "/books/ye*r" = .ok ["/books/year"] ∧
      Feed.ofFile (shelves ["books"]) "/books/main" =
        ((Feed.ofFile ((shelves ["books"]).under ["books"]) "/main").map
          (Feed.outer ["books"])).mapError (ParseError.outer ["books"]) := by
  have directory : PlainDirectory (shelves ["books"]) ["books"] :=
    ⟨⟨by decide, by decide +kernel, by decide +kernel⟩, by decide +kernel, by decide⟩
  obtain ⟨single, -⟩ := include_resolves_in_directory "/books" "year" rfl
  obtain ⟨-, within⟩ := include_resolves_in_directory "/books" "ye*r" rfl
  obtain ⟨matched, alone⟩ := within _ _ directory rfl
  refine ⟨directory, (single rfl).mpr rfl, ?_, ?_⟩
  · refine (matched rfl).trans ?_
    decide +kernel
  · exact alone (by decide +kernel) "main" ⟨rfl, by decide⟩

/-- In a directory with a question mark in its name, a target without wildcards names a file outside
as well; in one with brackets, a pattern names a file outside instead of the one inside. -/
theorem include_leaves_directory :
    ((shelves ["a?b", "acb"]).isDirectory "/a?b" = true ∧
      expandTarget (shelves ["a?b", "acb"]) (Path.join "/a?b" "year") =
        .ok ["/a?b/year", "/acb/year"]) ∧
    ((shelves ["a[b]", "ab"]).isFile "/a[b]/year" = true ∧
      expandTarget (shelves ["a[b]", "ab"]) (Path.join "/a[b]" "ye*r") = .ok ["/ab/year"]) := by
  refine ⟨⟨by decide +kernel, ?_⟩, by decide +kernel⟩
  have found : (shelves ["a?b", "acb"]).access.expand? "/a?b/year" =
      some ["/a?b/year", "/acb/year"] := by decide +kernel
  have files : ["/a?b/year", "/acb/year"].filter (shelves ["a?b", "acb"]).access.isFile =
      ["/a?b/year", "/acb/year"] := by decide +kernel
  have joined : Path.join "/a?b" "year" = "/a?b/year" := by decide
  rw [joined, expandTarget_of_isPattern _ rfl, found]
  dsimp only
  rw [files, Path.sort, List.mergeSort_of_pairwise (by decide +kernel)]

end Source

end DoubleEntry

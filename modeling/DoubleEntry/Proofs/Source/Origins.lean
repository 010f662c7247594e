import DoubleEntry.Proofs.Source.Ending
import DoubleEntry.Proofs.Source.Joining

/-! The sources of a journal are the text or the file where reading starts, and the files that are
included from there. Each line of the feed is a line of one of them, under its number there. -/

namespace DoubleEntry.Source

/-- Some line of a source includes the file at `path`. Targets are seen from `dir`. -/
def Includes (files : FileAccess) (dir : String) (lines : List (Except FileFault (List Char)))
    (path : String) : Prop :=
  ∃ text targets paths, .ok text ∈ lines ∧ includeTargets? text = some targets ∧
    expandTargets files dir targets = .ok paths ∧ path ∈ paths

theorem Includes.mono {files : FileAccess} {dir path : String}
    {lines more : List (Except FileFault (List Char))} (inside : lines ⊆ more)
    (named : Includes files dir lines path) : Includes files dir more path := by
  obtain ⟨text, targets, paths, member, names, expanded, one⟩ := named
  exact ⟨text, targets, paths, inside member, names, expanded, one⟩

/-- What the files that a line includes have in common, the line has as well. -/
theorem Feed.Additive.spliceLine {holds : Feed → Prop} (additive : Additive holds)
    {files : FileAccess} {splice : String → Except ParseFault Feed} {origin : Origin}
    {text : List Char} (named : (includeTargets? text).isSome)
    (inner : ∀ path feed, Includes files origin.dir [.ok text] path → splice path = .ok feed →
      holds feed) (number : Nat) :
    holds (spliceLine files splice origin number text) := by
  rw [spliceLine_eq]
  split
  case h_1 unnamed => simp [unnamed] at named
  case h_2 => exact additive.silent _ rfl
  case h_3 targets _ names =>
    split
    case h_1 => exact additive.silent _ rfl
    case h_2 paths expanded =>
      refine additive.concat fun feed member => ?_
      obtain ⟨path, inside, rfl⟩ := List.mem_map.mp member
      cases spliced : splice path with
      | error fault => exact additive.silent _ rfl
      | ok feed =>
        exact inner path feed ⟨text, targets, paths, by simp, names, expanded, inside⟩ spliced

namespace Reader

/-- The sources of a journal with their lines: what is open before the first step, and what is
included from there. -/
inductive Reads (files : FileAccess) (reader : Reader) :
    Origin → List (Except FileFault (List Char)) → Prop
  | opened {frame : Frame} (member : frame ∈ reader.stack) :
    Reads files reader (Frame.origin frame) frame.rest
  | included {origin : Origin} {lines inner : List (Except FileFault (List Char))} {path : String}
      {place : Place} (outer : Reads files reader origin lines)
      (named : Includes files origin.dir lines path) (located : files.locate path = .ok place)
      (readable : files.linesAt place = .ok inner) :
    Reads files reader ⟨path, Place.path place.dropLast, place.path⟩ inner

variable {files : FileAccess} {reader : Reader}

section Induction

variable {holds : Feed → Prop}
  (each : ∀ origin lines splice, Reads files reader origin lines →
    (∀ path feed, Includes files origin.dir lines path → splice path = .ok feed → holds feed) →
    holds (spliceLines files splice origin 0 lines))

include each

theorem of_spliceFile {opened : List Place} {path : String} {feed : Feed}
    (read : ∀ place lines, files.locate path = .ok place → files.linesAt place = .ok lines →
      Reads files reader ⟨path, Place.path place.dropLast, place.path⟩ lines)
    (spliced : spliceFile files opened path = .ok feed) : holds feed := by
  fun_induction spliceFile files opened path generalizing feed with
  | case1 => cases spliced
  | case2 => cases spliced
  | case3 => cases spliced
  | case4 opened path place located closed lines readable less origin =>
    rename_i ih
    rw [← Except.ok.inj spliced]
    have reads := read place lines located readable
    refine each origin lines _ reads fun path feed named => ih path fun place inner => ?_
    exact reads.included named

/-- What the feed of each source has, if those of the files included in it have it, the feed of the
journal has. -/
theorem Starts.feed_induction (starts : Starts files reader) :
    holds (feed files reader starts.sound) := by
  rw [feed_eq_spliceStack]
  cases starts with
  | text text dir =>
    have reads : Reads files (ofText text dir) _ _ := .opened (List.mem_singleton_self _)
    rw [ofText, spliceStack, spliceStack, Feed.append_empty]
    exact each _ _ _ reads fun path feed named => of_spliceFile each fun place lines =>
      reads.included named
  | @file path reader pushed =>
    unfold push at pushed
    split at pushed
    case h_1 => cases pushed
    case h_2 place located =>
      split at pushed
      case isTrue => cases pushed
      case isFalse =>
        split at pushed
        case h_1 => cases pushed
        case h_2 lines readable =>
          cases pushed
          have reads : Reads files ⟨[⟨some place, path, Place.path place.dropLast, 0, lines, []⟩]⟩
            _ _ := .opened (List.mem_singleton_self _)
          rw [spliceStack, spliceStack, Feed.append_empty]
          exact each _ _ _ reads fun path feed named => of_spliceFile each fun place lines =>
            reads.included named

end Induction

/-- A line of one of the sources, under its number there. -/
def Stands (files : FileAccess) (reader : Reader) (line : Line) : Prop :=
  ∃ origin lines index, Reads files reader origin lines ∧ line.source = origin.name ∧
    line.number = index + 1 ∧ lines[index]? = some (.ok line.text)

theorem additive_stands :
    Feed.Additive fun feed => ∀ line ∈ feed.lines, Stands files reader line :=
  Feed.additive_forall _

theorem Reads.stands_spliceLines {origin : Origin} {splice : String → Except ParseFault Feed}
    (done : List (Except FileFault (List Char))) {rest : List (Except FileFault (List Char))}
    (reads : Reads files reader origin (done ++ rest))
    (inner : ∀ path feed, Includes files origin.dir (done ++ rest) path → splice path = .ok feed →
      ∀ line ∈ feed.lines, Stands files reader line) :
    ∀ line ∈ (spliceLines files splice origin done.length rest).lines,
      Stands files reader line := by
  induction rest generalizing done with
  | nil => exact additive_stands.silent _ rfl
  | cons next rest ih =>
    cases next with
    | error reason => exact additive_stands.silent _ rfl
    | ok text =>
      rw [spliceLines_cons]
      refine additive_stands.append _ _ ?_ ?_
      · cases named : includeTargets? text with
        | none =>
          rw [spliceLine_of_plain named]
          intro line member
          rw [List.mem_singleton.mp member]
          exact ⟨origin, _, done.length, reads, rfl, rfl, by simp⟩
        | some targets =>
          refine additive_stands.spliceLine (by simp [named]) (fun path feed names => ?_) _
          exact inner path feed (names.mono (by simp))
      · have moved : done ++ .ok text :: rest = (done ++ [.ok text]) ++ rest := by simp
        rw [moved] at reads inner
        have later := ih (done ++ [.ok text]) reads inner
        rwa [List.length_append] at later

/-- Every line of the feed is the line of a source, with its text and its number there. -/
theorem Starts.stands (starts : Starts files reader) :
    ∀ line ∈ (feed files reader starts.sound).lines, Stands files reader line :=
  starts.feed_induction fun _ _ _ reads inner => reads.stands_spliceLines [] inner

/-- The number of a line of some source of this name. -/
def Numbers (files : FileAccess) (reader : Reader) (name : String) (number : Nat) : Prop :=
  ∃ origin lines, Reads files reader origin lines ∧ origin.name = name ∧ 1 ≤ number ∧
    number ≤ lines.length

theorem Stands.numbers {line : Line} (stands : Stands files reader line) :
    Numbers files reader line.source line.number := by
  obtain ⟨origin, lines, index, reads, name, number, found⟩ := stands
  obtain ⟨within, _⟩ := List.getElem?_eq_some_iff.mp found
  exact ⟨origin, lines, reads, name.symm, by omega, by omega⟩

/-- The lines with a meaning of a journal, from where its reader starts. -/
def Starts.meaningful (starts : Starts files reader) : Feed :=
  (feed files reader starts.sound).meaningful

theorem Starts.numbers (starts : Starts files reader) {line : Line}
    (member : line ∈ starts.meaningful.lines) :
    Numbers files reader line.source line.number := by
  obtain ⟨original, inside, rfl⟩ := List.mem_map.mp (List.mem_filter.mp member).1
  exact (starts.stands original inside).numbers

end Reader

end DoubleEntry.Source

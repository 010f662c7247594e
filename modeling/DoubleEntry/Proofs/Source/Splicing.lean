import DoubleEntry.Proofs.Source.IncludeLine

/-! A journal as the lines of its files, each included file in place of the line that names it. The
definition is by recursion on the files around a file. The reader with its stack of open sources
gives the same lines up to the same error. -/

namespace DoubleEntry.Source

namespace Feed

def single (line : Line) : Feed := { lines := [line] }

def failed (error : ParseError) : Feed := { lines := [], error := some error }

/-- One feed after another. Nothing comes after an error. -/
def append (feed next : Feed) : Feed :=
  match feed.error with
  | some _ => feed
  | none => { next with lines := feed.lines ++ next.lines }

instance : EmptyCollection Feed := ⟨{ lines := [] }⟩

instance : Append Feed := ⟨append⟩

def concat (feeds : List Feed) : Feed := feeds.foldr (· ++ ·) ∅

theorem append_def (feed next : Feed) : feed ++ next = feed.append next := rfl

@[simp] theorem empty_append (feed : Feed) : ∅ ++ feed = feed := rfl

@[simp] theorem append_empty (feed : Feed) : feed ++ ∅ = feed := by
  obtain ⟨lines, error⟩ := feed
  cases error with
  | none => exact congrArg (Feed.mk · none) (List.append_nil lines)
  | some => rfl

@[simp] theorem failed_append (error : ParseError) (feed : Feed) :
    failed error ++ feed = failed error := rfl

@[simp] theorem append_assoc (first second third : Feed) :
    first ++ second ++ third = first ++ (second ++ third) := by
  obtain ⟨lines, error⟩ := first
  obtain ⟨later, error'⟩ := second
  cases error <;> cases error' <;> simp [append_def, append]

theorem lines_append (feed next : Feed) : (feed ++ next).lines = feed.lines ∨
    (feed ++ next).lines = feed.lines ++ next.lines := by
  obtain ⟨lines, error⟩ := feed
  cases error with
  | some => exact .inl rfl
  | none => exact .inr rfl

end Feed

/-- Where lines come from: what their source is called, the directory from which its targets are
seen, and the path that is at fault when a line cannot be read. -/
structure Origin where
  name : String
  dir : String
  path : String

/-- The feed of a file that the line at `location` names. -/
def included (location : Location) : Except ParseFault Feed → Feed
  | .ok feed => feed
  | .error fault => .failed ⟨fault, some location⟩

theorem included_map_append (location : Location) (feed : Except ParseFault Feed) (later : Feed) :
    included location (feed.map (· ++ later)) = included location feed ++ later := by
  cases feed <;> rfl

/-- The feed of a line: the line itself, or the feeds of the files that it includes. `splice` gives
the feed of an included file, if the file can be opened. -/
def spliceLine (files : FileAccess) (splice : String → Except ParseFault Feed) (origin : Origin)
    (number : Nat) (text : List Char) : Feed :=
  let here : Location := ⟨origin.name, number⟩
  match writtenTargets? text with
  | none => .single ⟨origin.name, number, text⟩
  | some [] => .failed ⟨.incompleteDirective .includeFile, some here⟩
  | some targets => match filesNamed files origin.dir targets with
    | .error fault => .failed ⟨fault, some here⟩
    | .ok paths => .concat (paths.map fun path => included here (splice path))

/-- The feed of the lines after the first `read` ones. -/
def spliceLines (files : FileAccess) (splice : String → Except ParseFault Feed) (origin : Origin)
    (read : Nat) : List (Except FileFault (List Char)) → Feed
  | [] => ∅
  | .error reason :: _ => .failed ⟨.unreadable origin.path reason, none⟩
  | .ok text :: rest =>
    spliceLine files splice origin (read + 1) text ++
      spliceLines files splice origin (read + 1) rest

section Lines

variable {files : FileAccess} {splice : String → Except ParseFault Feed} {origin : Origin}

/-- The feed of a line from what the reader finds on it. -/
theorem spliceLine_eq (number : Nat) (text : List Char) :
    spliceLine files splice origin number text =
      let line : Line := ⟨origin.name, number, text⟩
      match includeTargets? text with
      | none => .single line
      | some [] => .failed ⟨.incompleteDirective .includeFile, some line.location⟩
      | some targets => match expandTargets files origin.dir targets with
        | .error fault => .failed ⟨fault, some line.location⟩
        | .ok paths => .concat (paths.map fun path => included line.location (splice path)) := by
  simp only [spliceLine, writtenTargets?_eq, filesNamed_eq, Line.location]

theorem spliceLine_of_plain {text : List Char} (plain : includeTargets? text = none)
    (number : Nat) :
    spliceLine files splice origin number text = .single ⟨origin.name, number, text⟩ := by
  rw [spliceLine_eq, plain]

theorem spliceLines_cons (text : List Char) (rest : List (Except FileFault (List Char)))
    (read : Nat) :
    spliceLines files splice origin read (.ok text :: rest) =
      spliceLine files splice origin (read + 1) text ++
        spliceLines files splice origin (read + 1) rest := rfl

end Lines

/-- How many files can still be opened inside of `opened`. -/
def unopened (files : FileAccess) (opened : List Place) : Nat :=
  (files.places.filter fun place => !opened.contains place).length

theorem unopened_lt {files : FileAccess} {opened : List Place} {place : Place}
    {lines : List (Except FileFault (List Char))} (closed : place ∉ opened)
    (readable : files.linesAt place = .ok lines) :
    unopened files (opened ++ [place]) < unopened files opened := by
  have without : (files.places.filter fun other => !(opened ++ [place]).contains other) =
      (files.places.filter fun other => !opened.contains other).filter (· != place) := by
    rw [List.filter_filter]
    refine List.filter_congr fun other _ => ?_
    by_cases same : other = place <;> simp [same]
  rw [unopened, without, unopened, List.length_filter_lt_length_iff_exists]
  exact ⟨place, by simp [files.mem_places readable, closed], by simp⟩

/-- The feed of a file. `opened` are the files around it, outermost first. -/
def spliceFile (files : FileAccess) (opened : List Place) (path : String) :
    Except ParseFault Feed :=
  match files.locate path with
  | .error reason => .error (.unreadable path reason)
  | .ok place =>
    if closed : place ∈ opened then .error (.includeCycle place.path (opened.map Place.path))
    else match readable : files.linesAt place with
      | .error reason => .error (.unreadable path reason)
      | .ok lines =>
        have := unopened_lt closed readable
        let origin : Origin := ⟨path, Place.path place.dropLast, place.path⟩
        .ok (spliceLines files (spliceFile files (opened ++ [place])) origin 0 lines)
termination_by unopened files opened

/-- The feed of a text held in memory. It has no place of its own. -/
def spliceText (files : FileAccess) (text : List Char) (dir : String) : Feed :=
  let origin : Origin := ⟨"<memory>", dir, "<memory>"⟩
  spliceLines files (spliceFile files []) origin 0 ((Text.lines text).map .ok)

namespace Reader

def Frame.origin (frame : Frame) : Origin :=
  ⟨frame.name, frame.dir, (frame.place.map Place.path).getD frame.name⟩

def spliceWaiting (files : FileAccess) (opened : List Place)
    (waiting : List (String × Location)) : Feed :=
  .concat (waiting.map fun (path, location) => included location (spliceFile files opened path))

/-- The feed of what is left of a frame among the files `opened`. -/
def spliceFrame (files : FileAccess) (opened : List Place) (frame : Frame) : Feed :=
  spliceWaiting files opened frame.pending ++
    spliceLines files (spliceFile files opened) (Frame.origin frame) frame.read frame.rest

/-- The feed of what is left of open sources, innermost first. -/
def spliceStack (files : FileAccess) : List Frame → Feed
  | [] => ∅
  | frame :: outer =>
    spliceFrame files (openPlaces ⟨frame :: outer⟩) frame ++ spliceStack files outer

@[simp] theorem spliceWaiting_nil (files : FileAccess) (opened : List Place) :
    spliceWaiting files opened [] = ∅ := rfl

@[simp] theorem spliceWaiting_cons (files : FileAccess) (opened : List Place) (path : String)
    (location : Location) (later : List (String × Location)) :
    spliceWaiting files opened ((path, location) :: later) =
      included location (spliceFile files opened path) ++ spliceWaiting files opened later := rfl

theorem spliceWaiting_map (files : FileAccess) (opened : List Place) (paths : List String)
    (location : Location) :
    spliceWaiting files opened (paths.map (·, location)) =
      .concat (paths.map fun path => included location (spliceFile files opened path)) := by
  rw [spliceWaiting, List.map_map]
  rfl

theorem openPlaces_cons (frame : Frame) (outer : List Frame) :
    openPlaces ⟨frame :: outer⟩ = openPlaces ⟨outer⟩ ++ frame.place.toList := by
  cases here : frame.place <;> simp [openPlaces, here]

/-- Opening a file adds the feed of the file to that of the stack, and fails where the file has no
feed. -/
theorem spliceStack_push (files : FileAccess) (reader : Reader) (path : String) :
    ((push files reader path).map fun next => spliceStack files next.stack) =
      (spliceFile files reader.openPlaces path).map (· ++ spliceStack files reader.stack) := by
  unfold push
  rw [spliceFile]
  cases files.locate path with
  | error => rfl
  | ok place =>
    by_cases within : place ∈ reader.openPlaces
    · simp [within, Except.map]
    · simp only [within]
      cases files.linesAt place with
      | error => rfl
      | ok lines => simp [Except.map, spliceStack, spliceFrame, Frame.origin, openPlaces_cons]

/-- What a step gives, and then what `rest` makes of the reader behind it. -/
def Step.feed (rest : Reader → Feed) : Step → Feed
  | .done => ∅
  | .failed error => .failed error
  | .silent next => rest next
  | .line given next => .single given ++ rest next

variable {files : FileAccess} {frame : Frame} {outer : List Frame}

/-- The feed of a step and of the stack behind it. -/
def stepFeed (files : FileAccess) (reader : Reader) : Feed :=
  (step files reader).feed fun next => spliceStack files next.stack

theorem stepFeed_of_waiting {path : String} {location : Location}
    {later : List (String × Location)} (waiting : frame.pending = (path, location) :: later) :
    stepFeed files ⟨frame :: outer⟩ = spliceStack files (frame :: outer) := by
  let reader : Reader := ⟨{ frame with pending := later } :: outer⟩
  have pushed : stepFeed files ⟨frame :: outer⟩ = included location
      ((push files reader path).map fun next => spliceStack files next.stack) := by
    simp only [stepFeed, step, waiting, reader]
    cases push files ⟨{ frame with pending := later } :: outer⟩ path <;> rfl
  rw [pushed, spliceStack_push, included_map_append]
  simp [reader, spliceStack, spliceFrame, Frame.origin, openPlaces_cons, waiting]

theorem stepFeed_of_text {text : List Char} {rest : List (Except FileFault (List Char))}
    (idle : frame.pending = []) (unread : frame.rest = .ok text :: rest) :
    stepFeed files ⟨frame :: outer⟩ = spliceStack files (frame :: outer) := by
  simp only [stepFeed, step, spliceStack, spliceFrame, spliceLines_cons, spliceLine_eq, Frame.origin,
    openPlaces_cons, idle, unread, spliceWaiting_nil, Feed.empty_append]
  cases includeTargets? text with
  | none => simp [Step.feed, spliceStack, spliceFrame, Frame.origin, openPlaces_cons]
  | some targets =>
    cases targets with
    | nil => rfl
    | cons target targets =>
      cases expanded : expandTargets files frame.dir (target :: targets) with
      | error fault => simp [Step.feed, expanded]
      | ok paths =>
        simp [Step.feed, spliceStack, spliceFrame, spliceWaiting_map, Frame.origin,
          openPlaces_cons, expanded]

/-- A step gives the start of what the stack gives, and leaves a stack that gives the rest. -/
theorem stepFeed_eq (files : FileAccess) (reader : Reader) :
    stepFeed files reader = spliceStack files reader.stack := by
  obtain ⟨stack⟩ := reader
  cases stack with
  | nil => rfl
  | cons frame outer =>
    cases idle : frame.pending with
    | cons => exact stepFeed_of_waiting idle
    | nil =>
      cases unread : frame.rest with
      | nil => simp [stepFeed, step, Step.feed, spliceStack, spliceFrame, spliceLines, idle, unread]
      | cons line =>
        cases line with
        | error =>
          simp [stepFeed, step, Step.feed, spliceStack, spliceFrame, spliceLines, Frame.origin,
            idle, unread]
        | ok => exact stepFeed_of_text idle unread

/-- A reader gives what its stack gives. -/
theorem feed_eq_spliceStack {reader : Reader} (sound : Sound files reader) :
    reader.feed files sound = spliceStack files reader.stack := by
  rw [← stepFeed_eq]
  -- along the run, as the stack may grow from step to step
  fun_induction Reader.feed files reader sound with
  | case1 reader sound stepped => rw [stepFeed, stepped]; rfl
  | case2 reader sound error stepped => rw [stepFeed, stepped]; rfl
  | case3 reader sound next stepped leads ih =>
    rw [ih, stepFeed_eq, stepFeed, stepped, Step.feed]
  | case4 reader sound line next stepped leads rest ih =>
    have rest_eq : rest = spliceStack files next.stack := ih.trans (stepFeed_eq files next)
    rw [stepFeed, stepped, Step.feed, ← rest_eq]
    rfl

/-- Opening a file with nothing around it. -/
theorem spliceFile_eq_push (files : FileAccess) (path : String) :
    spliceFile files [] path =
      (push files ⟨[]⟩ path).map fun next => spliceStack files next.stack := by
  have alone := spliceStack_push files ⟨[]⟩ path
  simp only [spliceStack, Feed.append_empty] at alone
  rw [alone]
  exact (congrFun Except.map_id (spliceFile files [] path)).symm

end Reader

theorem ofFile_eq_spliceFile (files : FileAccess) (path : String) :
    Feed.ofFile files path = (spliceFile files [] path).mapError (⟨·, none⟩) := by
  rw [Reader.spliceFile_eq_push, Feed.ofFile]
  split
  case h_1 fault pushed =>
    rw [pushed]
    rfl
  case h_2 reader pushed =>
    rw [Reader.feed_eq_spliceStack, pushed]
    rfl

theorem ofText_eq_spliceText (files : FileAccess) (text : List Char) (dir : String) :
    Feed.ofText files text dir = spliceText files text dir := by
  rw [Feed.ofText, Reader.feed_eq_spliceStack]
  simp [Reader.ofText, Reader.spliceStack, Reader.spliceFrame, Reader.Frame.origin,
    Reader.openPlaces, spliceText, memoryName]

/-- Reading with a stack gives the same as recursion on the files, from a file and from a text. -/
theorem ofFile_ofText_eq_splice (files : FileAccess) :
    (∀ path, Feed.ofFile files path = (spliceFile files [] path).mapError (⟨·, none⟩)) ∧
      ∀ text dir, Feed.ofText files text dir = spliceText files text dir := by
  constructor
  · exact ofFile_eq_spliceFile files
  · exact ofText_eq_spliceText files

/-- A journal with its accounts and a directory, where a file includes the accounts once more and
then the journal. -/
def books : FileSystem :=
  [("/books/main", "N $\ninclude accounts \"food/*\" ; shared\nN EUR"),
    ("/books/accounts", "N AU"), ("/books/food/old/receipts", "N GBP"),
    ("/books/food/shop", "!include ../accounts\ninclude ../main")].foldl
    (fun fs (path, text) => fs.write path (.file text.toUTF8.data.toList)) (.ofWorkDir [])

theorem ofFile_ofText_eq_splice_books :
    Feed.ofFile books "/books/main" = .ok
      { lines := [⟨"/books/main", 1, "N $".toList⟩, ⟨"/books/accounts", 1, "N AU".toList⟩,
          ⟨"/books/food/../accounts", 1, "N AU".toList⟩],
        error := some ⟨.includeCycle "/books/main" ["/books/main", "/books/food/shop"],
          some ⟨"/books/food/shop", 2⟩⟩ } ∧
    Feed.ofText books "include accounts\n include main\ninclude \"\" # main".toList "/books" =
      { lines := [⟨"/books/accounts", 1, "N AU".toList⟩, ⟨"<memory>", 2, " include main".toList⟩],
        error := some ⟨.incompleteDirective .includeFile, some ⟨"<memory>", 3⟩⟩ } ∧
    Feed.ofFile books "/books/food/old" = .ok
      { lines := [], error := some ⟨.unreadable "/books/food/old" .isDirectory, none⟩ } := by
  obtain ⟨file, text⟩ := ofFile_ofText_eq_splice books
  rw [file, text, file]
  decide +kernel

end DoubleEntry.Source

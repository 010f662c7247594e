import DoubleEntry.Files.Access
import DoubleEntry.Source.Line
import DoubleEntry.Source.StackOrder

/-! Reading a journal with the files that it includes. An `include` line is replaced by the lines of
the files it names. The files that are open at a time are kept on a stack, and a file that is on it
cannot be opened again, so reading comes to an end. -/

namespace DoubleEntry.Source

/-- The files that an `include` line names; none for any other line. -/
def includeTargets? (line : List Char) : Option (List String) :=
  if line.head?.any Text.isBlank then none
  else match Text.words line with
    | [] => none
    | keyword :: words =>
      if keyword != "include".toList && keyword != "!include".toList then none
      else
        let named := words.takeWhile fun word => word.head? != some ';' && word.head? != some '#'
        let targets := named.map (Text.stripMark '"')
        some ((targets.filter fun target => !target.isEmpty).map String.ofList)

/-- The paths that a target stands for. One with wildcards stands for the files it matches, in
order. -/
def expandTarget (files : FileAccess) (path : String) : Except ParseFault (List String) :=
  if !path.toList.any (fun c => c == '*' || c == '?') then .ok [path]
  else match files.expand? path with
    | none => .error (.unreadable path .badPattern)
    | some paths => .ok (Path.sort (paths.filter files.isFile))

/-- The paths that the targets of a line stand for, seen from the directory `dir`. -/
def expandTargets (files : FileAccess) (dir : String) (targets : List String) :
    Except ParseFault (List String) := do
  let paths ← targets.mapM fun target => expandTarget files (Path.join dir target)
  return paths.flatten

/-- What is left of an open source: its lines, and the files that its last `include` line named. -/
structure Frame where
  place : Option Place
  name : String
  dir : String
  read : Nat
  rest : List (Except FileFault (List Char))
  pending : List (String × Location)

/-- Open sources, innermost first. -/
structure Reader where
  stack : List Frame

namespace Reader

/-- The places of the open files, outermost first. -/
def openPlaces (reader : Reader) : List Place := (reader.stack.filterMap Frame.place).reverse

/-- Opens a file on top of the stack. -/
def push (files : FileAccess) (reader : Reader) (path : String) : Except ParseFault Reader :=
  match files.locate path with
  | .error reason => .error (.unreadable path reason)
  | .ok place =>
    if place ∈ reader.openPlaces then
      .error (.includeCycle place.path (reader.openPlaces.map Place.path))
    else match files.linesAt place with
      | .error reason => .error (.unreadable path reason)
      | .ok lines =>
        let dir := Place.path place.dropLast
        .ok ⟨⟨some place, path, dir, 0, lines, []⟩ :: reader.stack⟩

/-- A reader of text held in memory, which includes files as seen from `dir`. -/
def ofText (text : List Char) (dir : String) : Reader :=
  ⟨[⟨none, memoryName, dir, 0, (Text.lines text).map .ok, []⟩]⟩

/-- What a reader does next. -/
inductive Step where
  | done
  | silent (next : Reader)
  | line (line : Line) (next : Reader)
  | failed (error : ParseError)

/-- Opens the next file that is waiting, else takes the next line of the innermost source, else
closes that source. -/
def step (files : FileAccess) (reader : Reader) : Step :=
  match reader.stack with
  | [] => .done
  | frame :: outer =>
    match frame.pending with
    | (path, location) :: later =>
      match push files ⟨{ frame with pending := later } :: outer⟩ path with
      | .error fault => .failed ⟨fault, some location⟩
      | .ok next => .silent next
    | [] =>
      match frame.rest with
      | [] => .silent ⟨outer⟩
      | .error reason :: _ =>
        .failed ⟨.unreadable ((frame.place.map Place.path).getD frame.name) reason, none⟩
      | .ok text :: rest =>
        let line : Line := ⟨frame.name, frame.read + 1, text⟩
        let frame := { frame with read := frame.read + 1, rest := rest }
        match includeTargets? text with
        | none => .line line ⟨frame :: outer⟩
        | some targets =>
          if targets.isEmpty then
            .failed ⟨.incompleteDirective .includeFile, some line.location⟩
          else match expandTargets files frame.dir targets with
            | .error fault => .failed ⟨fault, some line.location⟩
            | .ok paths =>
              .silent ⟨{ frame with pending := paths.map (·, line.location) } :: outer⟩

/-! Reading ends. -/

/-- What holds of every reader that has started: no file is open twice, and only text held in memory
is open without being a file, below all others. -/
structure Sound (files : FileAccess) (reader : Reader) : Prop where
  distinct : reader.openPlaces.Nodup
  known : reader.openPlaces ⊆ files.places
  shallow : reader.stack.length ≤ reader.openPlaces.length + 1

/-- The height that a stack does not exceed. -/
def maxHeight (files : FileAccess) : Nat := files.places.length + 1

theorem Sound.length_le {files : FileAccess} {reader : Reader} (sound : Sound files reader) :
    reader.stack.length ≤ maxHeight files :=
  Nat.le_trans sound.shallow
    (Nat.succ_le_succ (List.Nodup.length_le_of_subset sound.distinct sound.known))

theorem sound_ofText (files : FileAccess) (text : List Char) (dir : String) :
    Sound files (ofText text dir) := by
  constructor <;> simp [ofText, openPlaces]

theorem sound_empty (files : FileAccess) : Sound files ⟨[]⟩ := by
  constructor <;> simp [openPlaces]

/-- Two stacks with the same open files are sound together. -/
private theorem Sound.of_same {files : FileAccess} {frame : Frame} {outer : List Frame}
    (sound : Sound files ⟨frame :: outer⟩) (frame' : Frame) (same : frame'.place = frame.place) :
    Sound files ⟨frame' :: outer⟩ := by
  obtain ⟨distinct, known, shallow⟩ := sound
  have places : openPlaces ⟨frame' :: outer⟩ = openPlaces ⟨frame :: outer⟩ := by
    simp [openPlaces, List.filterMap_cons, same]
  exact ⟨places ▸ distinct, places ▸ known, by simpa [places] using shallow⟩

private theorem Sound.outer {files : FileAccess} {frame : Frame} {outer : List Frame}
    (sound : Sound files ⟨frame :: outer⟩) : Sound files ⟨outer⟩ := by
  obtain ⟨distinct, known, shallow⟩ := sound
  cases place : frame.place with
  | none =>
    have places : openPlaces ⟨frame :: outer⟩ = openPlaces ⟨outer⟩ := by
      simp [openPlaces, place]
    rw [places] at distinct known shallow
    exact ⟨distinct, known, by simp at shallow ⊢; omega⟩
  | some here =>
    have places : openPlaces ⟨frame :: outer⟩ = openPlaces ⟨outer⟩ ++ [here] := by
      simp [openPlaces, place]
    rw [places] at distinct known shallow
    refine ⟨(List.nodup_append.mp distinct).1, fun _ member => known (by simp [member]), ?_⟩
    simpa using shallow

theorem push_stack {files : FileAccess} {reader next : Reader} {path : String}
    (pushed : push files reader path = .ok next) :
    ∃ frame place, next.stack = frame :: reader.stack ∧ frame.place = some place ∧
      place ∉ reader.openPlaces ∧ place ∈ files.places := by
  unfold push at pushed
  split at pushed
  · cases pushed
  case h_2 place _ =>
    split at pushed
    · cases pushed
    case isFalse fresh =>
      split at pushed
      · cases pushed
      case h_2 opened =>
        cases pushed
        exact ⟨_, place, rfl, rfl, fresh, files.mem_places opened⟩

theorem sound_push {files : FileAccess} {reader next : Reader} {path : String}
    (sound : Sound files reader) (pushed : push files reader path = .ok next) : Sound files next := by
  obtain ⟨frame, place, stack, here, fresh, exists_⟩ := push_stack pushed
  obtain ⟨distinct, known, shallow⟩ := sound
  have places : openPlaces next = openPlaces reader ++ [place] := by
    simp [openPlaces, stack, here]
  refine ⟨?_, ?_, ?_⟩
  · rw [places]
    exact List.nodup_append.mpr ⟨distinct, by simp, by
      intro other member _ last same
      exact fresh (List.mem_singleton.mp last ▸ same ▸ member)⟩
  · rw [places]
    intro other member
    rcases List.mem_append.mp member with member | member
    · exact known member
    · simp_all
  · rw [places, stack]
    simpa using shallow

def Step.next? : Step → Option Reader
  | done | failed _ => none
  | silent next | line _ next => some next

theorem sound_step {files : FileAccess} {reader next : Reader} (sound : Sound files reader)
    (stepped : (step files reader).next? = some next) : Sound files next := by
  obtain ⟨stack⟩ := reader
  unfold step at stepped
  cases stack with
  | nil => cases stepped
  | cons frame outer =>
    dsimp only at stepped
    split at stepped
    · split at stepped
      · cases stepped
      case h_2 pushed =>
        cases stepped
        refine sound_push (sound.of_same _ ?_) pushed
        rfl
    · split at stepped
      · cases stepped
        exact sound.outer
      · cases stepped
      · split at stepped
        · cases stepped
          exact sound.of_same _ rfl
        · split at stepped
          · cases stepped
          · split at stepped
            · cases stepped
            · cases stepped
              exact sound.of_same _ rfl

/-- What a frame still has to do. -/
def Frame.weight (frame : Frame) : Nat × Nat := (frame.rest.length + 1, frame.pending.length)

/-- What a reader still has to do. -/
def weight (files : FileAccess) (reader : Reader) : StackWeight (maxHeight files) :=
  .ofFrames (maxHeight files) (reader.stack.map Frame.weight).reverse

private theorem weight_lt {files : FileAccess} {frame frame' : Frame} {outer : List Frame}
    (inner : List Frame) (within : outer.length < maxHeight files)
    (less : StackWeight.Lighter (Frame.weight frame') (Frame.weight frame)) :
    (StackWeight.order (maxHeight files)).rel (weight files ⟨inner ++ frame' :: outer⟩)
      (weight files ⟨frame :: outer⟩) := by
  simpa [weight] using StackWeight.ofFrames_lt (outer.map Frame.weight).reverse
    (inner.map Frame.weight).reverse (by simpa using within) less

theorem weight_step {files : FileAccess} {reader next : Reader} (sound : Sound files reader)
    (stepped : (step files reader).next? = some next) :
    (StackWeight.order (maxHeight files)).rel (weight files next) (weight files reader) := by
  have bound := sound.length_le
  obtain ⟨stack⟩ := reader
  unfold step at stepped
  cases stack with
  | nil => cases stepped
  | cons frame outer =>
    have within : outer.length < maxHeight files := by simp at bound; omega
    dsimp only at stepped
    split at stepped
    case h_1 pending =>
      split at stepped
      · cases stepped
      case h_2 pushed =>
        cases stepped
        obtain ⟨inner, _, stack, -⟩ := push_stack pushed
        obtain ⟨stack'⟩ := next
        subst stack
        refine weight_lt [inner] within (Prod.Lex.right _ ?_)
        simp [pending]
    · split at stepped
      · cases stepped
        simpa [weight] using StackWeight.ofFrames_dropLast_lt
          (outer.map Frame.weight).reverse (Frame.weight frame)
          (by simpa using within) (by simp [Frame.weight])
      · cases stepped
      case h_3 rest _ _ =>
        split at stepped
        · cases stepped
          refine weight_lt [] within (Prod.Lex.left _ _ ?_)
          simp_all
        · split at stepped
          · cases stepped
          · split at stepped
            · cases stepped
            · cases stepped
              refine weight_lt [] within (Prod.Lex.left _ _ ?_)
              simp_all

/-- Every line up to the end or up to the first error. -/
def feed (files : FileAccess) (reader : Reader) (sound : Sound files reader) : Feed :=
  match stepped : step files reader with
  | .done => { lines := [] }
  | .failed error => { lines := [], error := some error }
  | .silent next =>
    have leads : (step files reader).next? = some next := by rw [stepped]; rfl
    feed files next (sound_step sound leads)
  | .line line next =>
    have leads : (step files reader).next? = some next := by rw [stepped]; rfl
    let rest := feed files next (sound_step sound leads)
    { rest with lines := line :: rest.lines }
termination_by weight files reader
decreasing_by all_goals exact weight_step sound leads

end Reader

/-- Every line of a text held in memory and of what it includes, as seen from `dir`. -/
def Feed.ofText (files : FileAccess) (text : List Char) (dir : String) : Feed :=
  Reader.feed files (Reader.ofText text dir) (Reader.sound_ofText files text dir)

/-- Every line of a file and of what it includes; an error if the file cannot be opened. -/
def Feed.ofFile (files : FileAccess) (path : String) : Except ParseError Feed :=
  match pushed : Reader.push files ⟨[]⟩ path with
  | .error fault => .error ⟨fault, none⟩
  | .ok reader =>
    .ok (Reader.feed files reader (Reader.sound_push (Reader.sound_empty files) pushed))

end DoubleEntry.Source

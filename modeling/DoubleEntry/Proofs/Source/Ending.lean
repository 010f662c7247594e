import DoubleEntry.Proofs.Source.Splicing
import Mathlib.Data.List.Dedup

/-! Reading ends. However files include each other, no file is open twice at a time, so the stack of
open sources has a bound; after finitely many steps nothing is open, and at most one error has been
given by then. A call of the reader takes the steps up to the next line or error. -/

namespace DoubleEntry.Source

/-- What a reader gives: a line, or the error that ends it. -/
abbrev Given := Except ParseError Line

/-- The lines of a feed, and then the error if there is one. -/
def Feed.items (feed : Feed) : List Given :=
  feed.lines.map .ok ++ feed.error.toList.map .error

def Given.isError : Given → Bool
  | .ok _ => false
  | .error _ => true

theorem Feed.countP_isError_items_le (feed : Feed) : feed.items.countP Given.isError ≤ 1 := by
  obtain ⟨lines, error⟩ := feed
  have noError : (lines.map fun line => (.ok line : Given)).countP Given.isError = 0 := by
    rw [List.countP_map, List.countP_eq_zero]
    simp [Given.isError]
  rw [items, List.countP_append, noError]
  cases error <;> simp [Given.isError]

/-- The places where something can be opened, each once. -/
def openable (files : FileAccess) : List Place :=
  files.places.dedup.filter fun place => (files.linesAt place).isOk

namespace Reader

/-- The reader behind a step. An error closes everything. -/
def Step.after : Step → Reader
  | .done | .failed _ => ⟨[]⟩
  | .silent reader | .line _ reader => reader

def Step.given : Step → List Given
  | .done | .silent _ => []
  | .line found _ => [.ok found]
  | .failed error => [.error error]

def after (files : FileAccess) : Nat → Reader → Reader
  | 0, reader => reader
  | n + 1, reader => after files n (step files reader).after

def given (files : FileAccess) : Nat → Reader → List Given
  | 0, _ => []
  | n + 1, reader => (step files reader).given ++ given files n (step files reader).after

/-- A reader of a text, or of a file that could be opened, before its first step. -/
inductive Starts (files : FileAccess) : Reader → Prop
  | text (text : List Char) (dir : String) : Starts files (ofText text dir)
  | file {path : String} {reader : Reader} (opened : push files ⟨[]⟩ path = .ok reader) :
    Starts files reader

variable {files : FileAccess} {reader : Reader}

theorem sound_after_step (sound : Sound files reader) : Sound files (step files reader).after := by
  cases stepped : step files reader with
  | done => exact sound_empty files
  | failed => exact sound_empty files
  | silent next => exact sound_step sound (by rw [stepped]; rfl)
  | line line next => exact sound_step sound (by rw [stepped]; rfl)

theorem sound_after (sound : Sound files reader) (n : Nat) :
    Sound files (after files n reader) := by
  induction n generalizing reader with
  | zero => exact sound
  | succ n ih => exact ih (sound_after_step sound)

theorem Starts.sound (starts : Starts files reader) : Sound files reader := by
  cases starts with
  | text text dir => exact sound_ofText files text dir
  | file opened => exact sound_push (sound_empty files) opened

/-! The list of places of a file system only bounds the stack; steps do not depend on it. -/

/-- The same answers about files, with only the places where something can be opened. -/
def narrowed (files : FileAccess) : FileAccess :=
  { files with
    places := openable files
    mem_places := fun opened => by
      rw [openable, List.mem_filter, List.mem_dedup, opened]
      exact ⟨files.mem_places opened, rfl⟩ }

theorem after_narrowed (n : Nat) (reader : Reader) :
    after (narrowed files) n reader = after files n reader := by
  induction n generalizing reader with
  | zero => rfl
  | succ n ih => exact ih _

theorem Starts.narrowed (starts : Starts files reader) : Starts (narrowed files) reader := by
  cases starts with
  | text text dir => exact .text text dir
  | file opened => exact .file opened

/-- In every state the open files are distinct and there are no more of them than can be opened. -/
theorem Starts.bounded (starts : Starts files reader) (n : Nat) :
    (after files n reader).openPlaces.Nodup ∧
      (after files n reader).stack.length ≤ (openable files).length + 1 := by
  have sound := sound_after starts.narrowed.sound n
  rw [after_narrowed] at sound
  exact ⟨sound.distinct, sound.length_le⟩

/-! The end of a run. -/

theorem after_nil (n : Nat) : after files n ⟨[]⟩ = ⟨[]⟩ := by
  induction n with
  | zero => rfl
  | succ n ih => exact ih

theorem given_nil (n : Nat) : given files n ⟨[]⟩ = [] := by
  induction n with
  | zero => rfl
  | succ n ih => exact ih

theorem after_add (m n : Nat) (reader : Reader) :
    after files (m + n) reader = after files n (after files m reader) := by
  induction m generalizing reader with
  | zero => rw [Nat.zero_add]; rfl
  | succ m ih => rw [Nat.succ_add]; exact ih _

theorem given_add (m n : Nat) (reader : Reader) :
    given files (m + n) reader = given files m reader ++ given files n (after files m reader) := by
  induction m generalizing reader with
  | zero => rw [Nat.zero_add]; rfl
  | succ m ih => rw [Nat.succ_add, given, given, ih, List.append_assoc, after]

/-- After finitely many steps nothing is open, and the steps have given the whole feed. -/
theorem exists_end (sound : Sound files reader) :
    ∃ n, after files n reader = ⟨[]⟩ ∧ given files n reader = (feed files reader sound).items := by
  fun_induction Reader.feed files reader sound with
  | case1 reader sound stepped =>
    refine ⟨1, ?_, ?_⟩
    · rw [after, stepped]; rfl
    · rw [given, stepped]; rfl
  | case2 reader sound error stepped =>
    refine ⟨1, ?_, ?_⟩
    · rw [after, stepped]; rfl
    · rw [given, stepped]; rfl
  | case3 reader sound next stepped leads ih =>
    obtain ⟨n, ended, all⟩ := ih
    refine ⟨n + 1, ?_, ?_⟩
    · rw [after, stepped]; exact ended
    · rw [given, stepped]; exact all
  | case4 reader sound line next stepped leads rest ih =>
    obtain ⟨n, ended, all⟩ := ih
    refine ⟨n + 1, ?_, ?_⟩
    · rw [after, stepped]; exact ended
    · rw [given, stepped]
      exact congrArg (.ok line :: ·) all

/-! Calls. -/

/-- A call of a reader takes steps up to the first that gives something, or to the end. -/
def call (files : FileAccess) (reader : Reader) (sound : Sound files reader) :
    Option Given × Reader :=
  match stepped : step files reader with
  | .done => (none, ⟨[]⟩)
  | .failed error => (some (.error error), ⟨[]⟩)
  | .line line next => (some (.ok line), next)
  | .silent next =>
    have leads : (step files reader).next? = some next := by rw [stepped]; rfl
    call files next (sound_step sound leads)
termination_by weight files reader
decreasing_by exact weight_step sound leads

theorem sound_call (sound : Sound files reader) : Sound files (call files reader sound).2 := by
  fun_induction call files reader sound with
  | case1 => exact sound_empty files
  | case2 => exact sound_empty files
  | case3 reader sound line next stepped => exact sound_step sound (by rw [stepped]; rfl)
  | case4 reader sound next stepped leads ih => exact ih

/-- What the `n`th call gives, counted from zero. -/
def item (files : FileAccess) : (n : Nat) → (reader : Reader) → Sound files reader → Option Given
  | 0, reader, sound => (call files reader sound).1
  | n + 1, reader, sound => item files n (call files reader sound).2 (sound_call sound)

theorem items_feed_nil (sound : Sound files reader) (nothingOpen : reader = ⟨[]⟩) :
    (feed files reader sound).items = [] := by
  rw [feed_eq_spliceStack, nothingOpen]
  rfl

/-- A call that gives nothing leaves nothing open. -/
theorem call_eq_nil (sound : Sound files reader) (nothing : (call files reader sound).1 = none) :
    (call files reader sound).2 = ⟨[]⟩ := by
  fun_induction call files reader sound with
  | case1 => rfl
  | case2 => rfl
  | case3 => cases nothing
  | case4 reader sound next stepped leads ih => exact ih nothing

/-- A call gives the first of the items that are left. -/
theorem items_feed (sound : Sound files reader) (after : Sound files (call files reader sound).2) :
    (feed files reader sound).items = (call files reader sound).1.toList ++
      (feed files (call files reader sound).2 after).items := by
  rw [feed_eq_spliceStack, ← stepFeed_eq, stepFeed]
  fun_induction call files reader sound with
  | case1 reader sound stepped => rw [stepped, items_feed_nil after rfl]; rfl
  | case2 reader sound error stepped => rw [stepped, items_feed_nil after rfl]; rfl
  | case3 reader sound line next stepped =>
    rw [stepped, feed_eq_spliceStack]
    rfl
  | case4 reader sound next stepped leads ih =>
    rw [stepped, ← ih after, Step.feed, ← stepFeed_eq, stepFeed]

/-- The calls give the items of the feed one by one, and then nothing. -/
theorem item_eq_getElem? (sound : Sound files reader) (n : Nat) :
    item files n reader sound = (feed files reader sound).items[n]? := by
  induction n generalizing reader with
  | zero =>
    rw [item, items_feed sound (sound_call sound)]
    cases first : (call files reader sound).1 with
    | none => rw [items_feed_nil _ (call_eq_nil sound first)]; rfl
    | some => rfl
  | succ n ih =>
    rw [item, ih, items_feed sound (sound_call sound)]
    cases first : (call files reader sound).1 with
    | none => rw [items_feed_nil _ (call_eq_nil sound first)]; rfl
    | some => rfl

/-- However files include each other, reading comes to an end. In every state the open files are
distinct, and there is at most one source more than there are files. After some step nothing is open
any more, and the steps up to there give finitely many items, of which at most one is an error. The
calls of the reader give these items one by one, and then nothing. -/
theorem Starts.reading_ends (starts : Starts files reader) :
    (∀ n, (after files n reader).openPlaces.Nodup ∧
      (after files n reader).stack.length ≤ (openable files).length + 1) ∧
    ∃ items : List Given, items.countP Given.isError ≤ 1 ∧
      (∃ last, ∀ n, last ≤ n → after files n reader = ⟨[]⟩ ∧ given files n reader = items) ∧
      ∀ n, item files n reader starts.sound = items[n]? := by
  refine ⟨starts.bounded, (feed files reader starts.sound).items, Feed.countP_isError_items_le _,
    ?_, item_eq_getElem? starts.sound⟩
  obtain ⟨last, ended, all⟩ := exists_end starts.sound
  refine ⟨last, fun n late => ?_⟩
  obtain ⟨more, rfl⟩ := Nat.exists_eq_add_of_le late
  rw [after_add, given_add, ended, all, after_nil, given_nil, List.append_nil]
  exact ⟨rfl, rfl⟩

/-- Two files: the first includes the second by its name, and the second all that a pattern stands
for, which is the first. -/
def eachOther : FileAccess where
  locate path :=
    if path = "./a" ∨ path = "/a" then .ok ["a"]
    else if path = "/b" then .ok ["b"] else .error .notFound
  linesAt place :=
    if place = ["a"] then .ok [.ok "N $".toList, .ok "include b".toList]
    else if place = ["b"] then .ok [.ok "include *".toList, .ok "N EUR".toList]
    else .error .notFound
  expand? _ := some ["/a"]
  isFile _ := true
  places := [["a"], ["b"]]
  mem_places := by
    intro place lines opened
    split at opened
    case isTrue first => simp [first]
    case isFalse =>
      split at opened
      case isTrue second => simp [second]
      case isFalse => cases opened

theorem reading_ends_eachOther :
    let reader := ofText "N AU\ninclude a\n".toList "."
    ∃ starts : Starts eachOther reader,
      given eachOther 9 reader = [.ok ⟨"<memory>", 1, "N AU".toList⟩, .ok ⟨"./a", 1, "N $".toList⟩,
        .error ⟨.includeCycle "/a" ["/a", "/b"], some ⟨"/b", 1⟩⟩] ∧
      (∀ n, (after eachOther n reader).openPlaces.Nodup ∧
        (after eachOther n reader).stack.length ≤ (openable eachOther).length + 1) ∧
      ∃ items : List Given, items.countP Given.isError ≤ 1 ∧
        (∃ last, ∀ n, last ≤ n →
          after eachOther n reader = ⟨[]⟩ ∧ given eachOther n reader = items) ∧
        ∀ n, item eachOther n reader starts.sound = items[n]? := by
  have starts : Starts eachOther (ofText "N AU\ninclude a\n".toList ".") := .text _ "."
  exact ⟨starts, by decide +kernel, starts.reading_ends⟩

end Reader

end DoubleEntry.Source

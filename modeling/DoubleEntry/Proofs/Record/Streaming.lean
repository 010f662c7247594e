import DoubleEntry.Record

/-! A reader of records, asked for one item after another, gives what a single pass over the lines
gives. The pass keeps nothing in store: a transaction is given when the next record starts. -/

namespace DoubleEntry

/-- The items of a reading: its directives, and then the error if there is one. -/
def Reading.items (reading : Reading) : List Item :=
  reading.directives.map .ok ++ reading.error.toList.map .error

/-- The reading that starts with an item, if there is one, and goes on with `rest` unless it has
ended. -/
def Reading.following (rest : Reading) : Option Item → Reading
  | none => { directives := [] }
  | some (.error error) => { directives := [], error := some error }
  | some (.ok directive) => rest.prepend [directive]

@[simp] theorem Reading.prepend_nil (reading : Reading) : reading.prepend [] = reading := rfl

@[simp] theorem Reading.prepend_prepend (reading : Reading) (first second : List Located) :
    (reading.prepend second).prepend first = reading.prepend (first ++ second) := by
  simp [Reading.prepend]

/-- A pass over the lines up to the first error, with a transaction that may get more postings. -/
def gather (pending : Option OpenRecord) (error : Option ParseError) : List Source.Line → Reading
  | [] => match error with
    | none => { directives := pending.toList.map OpenRecord.close }
    | some error => { directives := [], error := some error }
  | line :: rest =>
    let failed (fault : ParseFault) : Reading :=
      { directives := [], error := some ⟨fault, some line.location⟩ }
    match line.text with
    | [] => gather pending error rest
    | first :: _ =>
      if Text.isBlank first then
        match pending with
        | none => failed .unexpectedPosting
        | some record => match readPosting line.text with
          | .error fault => failed fault
          | .ok posting => gather (some (record.add posting line.number)) error rest
      else
        match readStart first line.text with
        | .error fault => failed fault
        | .ok (.transaction transaction) =>
          (gather (some ⟨transaction, line.source, line.number, line.number⟩) error rest).prepend
            (pending.toList.map OpenRecord.close)
        | .ok directive =>
          let single := Located.between directive line.source line.number line.number
          (gather none error rest).prepend (pending.toList.map OpenRecord.close ++ [single])

namespace RecordReader

/-- What a reader has still to give. -/
def remaining (reader : RecordReader) : Reading :=
  let unread := if reader.done then { directives := [] }
    else gather reader.pending reader.error reader.lines
  unread.prepend reader.queued.toList

theorem remaining_of_advance (pending : Option OpenRecord) (error : Option ParseError)
    (lines : List Source.Line) :
    gather pending error lines =
      (advance pending error lines).2.remaining.following (advance pending error lines).1 := by
  fun_induction advance pending error lines
  case case1 pending ended whole =>
    subst whole
    cases pending <;> rfl
  case case2 failed =>
    subst failed
    rfl
  case case3 line rest text ih => simpa only [gather, text] using ih
  case case6 line rest first more text blank record posting read ih =>
    rw [text] at read
    simpa [gather, text, blank, read] using ih
  case case8 line rest first more text start transaction read opened ih =>
    rw [text] at read
    simpa [gather, text, start, read] using ih
  case case9 line rest first more text start transaction read opened record =>
    rw [text] at read
    simp [gather, text, start, read, remaining, Reading.following, opened]
  case case4 | case5 | case7 | case10 | case11 =>
    simp_all +zetaDelta [gather, remaining, Reading.following]

theorem remaining_eq_following (reader : RecordReader) :
    reader.remaining = reader.next.2.remaining.following reader.next.1 := by
  unfold next
  split
  case h_1 directive queued => simp [remaining, queued, Reading.following]
  case h_2 queued =>
    by_cases ended : reader.done = true
    · simp [remaining, queued, ended, Reading.following]
    · have running : reader.remaining = gather reader.pending reader.error reader.lines := by
        simp [remaining, queued, ended]
      rw [if_neg ended, running, remaining_of_advance]

theorem drain_eq_remaining (reader : RecordReader) : reader.drain = reader.remaining := by
  fun_induction drain reader with
  | case1 reader after given => rw [remaining_eq_following, given]; rfl
  | case2 reader error after given => rw [remaining_eq_following, given]; rfl
  | case3 reader directive after given less ih =>
    rw [ih, remaining_eq_following reader, given, Reading.following]

theorem remaining_of_done {reader : RecordReader} (done : reader.done = true)
    (unqueued : reader.queued = none) : reader.remaining = { directives := [] } := by
  simp [remaining, done, unqueued]

theorem remaining_advance_of_ended {pending : Option OpenRecord} {error : Option ParseError}
    {lines : List Source.Line}
    (ended : ∀ directive, (advance pending error lines).1 ≠ some (.ok directive)) :
    (advance pending error lines).2.remaining = { directives := [] } := by
  fun_induction advance pending error lines
  case case3 ih | case6 ih | case8 ih => exact ih ended
  case case9 record => exact absurd rfl (ended record.close)
  case case10 single => exact absurd rfl (ended single)
  case case11 record => exact absurd rfl (ended record.close)
  all_goals exact remaining_of_done rfl rfl

/-- A reader that has not given a directive has nothing more to give. -/
theorem remaining_next_of_ended (reader : RecordReader)
    (ended : ∀ directive, reader.next.1 ≠ some (.ok directive)) :
    reader.next.2.remaining = { directives := [] } := by
  unfold next at ended ⊢
  split at ended
  case h_1 directive _ => exact absurd rfl (ended directive)
  case h_2 unqueued =>
    split at ended
    case isTrue done =>
      rw [if_pos done]
      exact remaining_of_done done unqueued
    case isFalse running =>
      rw [if_neg running]
      exact remaining_advance_of_ended ended

def item : Nat → RecordReader → Option Item
  | 0, reader => reader.next.1
  | n + 1, reader => item n reader.next.2

/-- The calls give the items that remain one by one, and then nothing. -/
theorem item_eq_getElem? (reader : RecordReader) (n : Nat) :
    item n reader = reader.remaining.items[n]? := by
  induction n generalizing reader with
  | zero =>
    rw [item, remaining_eq_following]
    rcases reader.next.1 with _ | _ | _ <;> rfl
  | succ n ih =>
    rw [item, ih, remaining_eq_following reader]
    have ended := remaining_next_of_ended reader
    -- only a directive leaves items behind it
    rcases given : reader.next.1 with _ | error | directive
    · simp [ended, given, Reading.following, Reading.items]
    · simp [ended, given, Reading.following, Reading.items]
    · rfl

end RecordReader

end DoubleEntry

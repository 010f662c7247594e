import DoubleEntry.Text.Blank

/-! Dates of the proleptic Gregorian calendar and times of day, as they are written in a journal. -/

namespace DoubleEntry

/-- A year of 366 days. -/
def isLeapYear (year : Int) : Bool := year % 4 == 0 && (year % 100 != 0 || year % 400 == 0)

/-- The number of days of a month, for months 1 to 12. -/
def daysIn (year : Int) (month : Nat) : Nat :=
  if month == 2 then if isLeapYear year then 29 else 28
  else if month == 4 || month == 6 || month == 9 || month == 11 then 30
  else 31

/-- Whether the calendar has such a day. Years reach from -262143 to 262142. -/
def isDay (year : Int) (month day : Nat) : Bool :=
  -262143 ≤ year && year ≤ 262142 && 1 ≤ month && month ≤ 12 && 1 ≤ day && day ≤ daysIn year month

structure Date where
  year : Int
  month : Nat
  day : Nat
  exists_day : isDay year month day = true
  deriving DecidableEq

namespace Date

instance : Inhabited Date := ⟨⟨1970, 1, 1, by decide⟩⟩

/-- The date with these parts, if the calendar has it. -/
def ofParts? (year : Int) (month day : Nat) : Option Date :=
  if valid : isDay year month day = true then some ⟨year, month, day, valid⟩ else none

/-- Earlier dates first. -/
instance : Ord Date :=
  ⟨compareLex (compareOn (·.year)) (compareLex (compareOn (·.month)) (compareOn (·.day)))⟩

instance : Std.TransOrd Date :=
  inferInstanceAs (Std.TransCmp
    (compareLex (compareOn Date.year) (compareLex (compareOn Date.month) (compareOn Date.day))))

end Date

/-- A time of day; a leap second is second 60 of its minute. -/
structure TimeOfDay where
  hour : Nat
  minute : Nat
  second : Nat
  bounds : hour ≤ 23 ∧ minute ≤ 59 ∧ second ≤ 60
  deriving DecidableEq

instance : Inhabited TimeOfDay := ⟨⟨0, 0, 0, by decide⟩⟩

def TimeOfDay.ofParts? (hour minute second : Nat) : Option TimeOfDay :=
  if valid : hour ≤ 23 ∧ minute ≤ 59 ∧ second ≤ 60 then some ⟨hour, minute, second, valid⟩ else none

structure Timestamp where
  date : Date
  time : TimeOfDay
  deriving DecidableEq, Inhabited

/-! Writing. -/

/-- A number with at least `width` digits. -/
def digitsPadded (width number : Nat) : String :=
  let digits := Nat.toDigits 10 number
  String.ofList (List.replicate (width - digits.length) '0' ++ digits)

/-- A year with at least four digits, and a sign outside 0 to 9999. -/
def yearText (year : Int) : String :=
  let sign := if year < 0 then "-" else if 9999 < year then "+" else ""
  sign ++ digitsPadded 4 year.natAbs

def Date.text (date : Date) (separator : String) : String :=
  separator.intercalate [yearText date.year, digitsPadded 2 date.month, digitsPadded 2 date.day]

def TimeOfDay.text (time : TimeOfDay) : String :=
  ":".intercalate [digitsPadded 2 time.hour, digitsPadded 2 time.minute, digitsPadded 2 time.second]

/-! Reading. A reader takes the front of a text and leaves the rest. -/

/-- Reads a number of one to `most` digits after any blanks; `none` for `most` sets no bound. -/
def readDigits? (most : Option Nat) (text : List Char) : Option (Nat × List Char) :=
  let text := Text.trimStart text
  let run := text.takeWhile Char.isDigit
  let digits := match most with
    | none => run
    | some most => run.take most
  if digits.isEmpty then none
  else some (Nat.ofDigitChars 10 digits 0, text.drop digits.length)

/-- Reads a year: up to four digits, or a sign and any number of digits. -/
def readYear? (text : List Char) : Option (Int × List Char) :=
  match Text.trimStart text with
  | '-' :: rest => signed rest fun year => -(year : Int)
  | '+' :: rest => signed rest fun year => (year : Int)
  | text => do
    let (year, rest) ← readDigits? (some 4) text
    return (year, rest)
where
  signed (text : List Char) (embed : Nat → Int) : Option (Int × List Char) :=
    let digits := text.takeWhile Char.isDigit
    if digits.isEmpty then none
    else some (embed (Nat.ofDigitChars 10 digits 0), text.dropWhile Char.isDigit)

def readMark? (mark : Char) : List Char → Option (List Char)
  | [] => none
  | c :: rest => if c == mark then some rest else none

def Date.read? (separator : Char) (text : List Char) : Option (Date × List Char) := do
  let (year, text) ← readYear? text
  let text ← readMark? separator text
  let (month, text) ← readDigits? (some 2) text
  let text ← readMark? separator text
  let (day, text) ← readDigits? (some 2) text
  let date ← Date.ofParts? year month day
  return (date, text)

def TimeOfDay.read? (text : List Char) : Option (TimeOfDay × List Char) := do
  let (hour, text) ← readDigits? (some 2) text
  let text ← readMark? ':' text
  let (minute, text) ← readDigits? (some 2) text
  let text ← readMark? ':' text
  let (second, text) ← readDigits? (some 2) text
  let time ← TimeOfDay.ofParts? hour minute second
  return (time, text)

/-- A date that takes up the whole text, written with slashes or with hyphens. -/
def Date.ofText? (text : List Char) : Option Date :=
  ['/', '-'].findSome? fun separator => do
    let (date, rest) ← Date.read? separator text
    guard rest.isEmpty
    return date

/-- A date and a time that take up the whole text. -/
def Timestamp.ofText? (text : List Char) : Option Timestamp :=
  ['/', '-'].findSome? fun separator => do
    let (date, rest) ← Date.read? separator text
    let (time, rest) ← TimeOfDay.read? (Text.trimStart rest)
    guard rest.isEmpty
    return ⟨date, time⟩

end DoubleEntry

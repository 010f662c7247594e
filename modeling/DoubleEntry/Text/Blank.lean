/-! Blank characters, and what depends on them: trimming and splitting into words. Texts under
analysis are lists of characters. -/

namespace DoubleEntry.Text

/-- A character with the Unicode property White_Space. -/
def isBlank (c : Char) : Bool :=
  let code := c.toNat
  (9 ≤ code && code ≤ 13) || code == 0x20 || code == 0x85 || code == 0xA0 || code == 0x1680 ||
    (0x2000 ≤ code && code ≤ 0x200A) || code == 0x2028 || code == 0x2029 || code == 0x202F ||
    code == 0x205F || code == 0x3000

def trimStart (text : List Char) : List Char := text.dropWhile isBlank

def trimEnd : List Char → List Char
  | [] => []
  | c :: rest =>
    let kept := trimEnd rest
    if kept.isEmpty && isBlank c then [] else c :: kept

def trim (text : List Char) : List Char := trimEnd (trimStart text)

/-- Removes every copy of `mark` from the two ends of a text. -/
def stripMark (mark : Char) (text : List Char) : List Char :=
  ((text.dropWhile (· == mark)).reverse.dropWhile (· == mark)).reverse

/-- The word that `text` starts with, and the words after it. -/
def splitWords : List Char → List Char × List (List Char)
  | [] => ([], [])
  | c :: rest =>
    let (word, later) := splitWords rest
    if isBlank c then ([], if word.isEmpty then later else word :: later) else (c :: word, later)

/-- The maximal runs of characters that are not blank. -/
def words (text : List Char) : List (List Char) :=
  let (word, later) := splitWords text
  if word.isEmpty then later else word :: later

def unwords (words : List (List Char)) : List Char := [' '].intercalate words

/-- Cuts at the first character that satisfies `isCut`, which belongs to neither part. -/
def cutAt (isCut : Char → Bool) (text : List Char) : Option (List Char × List Char) :=
  match text.dropWhile fun c => !isCut c with
  | [] => none
  | _ :: rest => some (text.takeWhile fun c => !isCut c, rest)

def trimmed (text : String) : String := String.ofList (trim text.toList)

theorem length_of_cutAt {isCut : Char → Bool} {text before after : List Char}
    (cut : cutAt isCut text = some (before, after)) : after.length < text.length := by
  unfold cutAt at cut
  split at cut
  · cases cut
  case h_2 found =>
    cases cut
    have shorter : (text.dropWhile fun c => !isCut c).length ≤ text.length :=
      (List.dropWhile_suffix _).length_le
    rw [found, List.length_cons] at shorter
    omega

theorem trimEnd_cons_of_not_blank {c : Char} (solid : isBlank c = false) (rest : List Char) :
    trimEnd (c :: rest) = c :: trimEnd rest := by
  simp [trimEnd, solid]

theorem trimEnd_idem (text : List Char) : trimEnd (trimEnd text) = trimEnd text := by
  induction text with
  | nil => rfl
  | cons c rest ih =>
    by_cases dropped : (trimEnd rest).isEmpty && isBlank c
    · simp [trimEnd, dropped]
    · simp only [Bool.and_eq_true, List.isEmpty_iff] at dropped
      simp [trimEnd, ih, dropped]

end DoubleEntry.Text

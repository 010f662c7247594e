/-! Regular expressions over characters, and whether one matches somewhere in a text. A set of
positions between characters is kept as the number that has a bit for each of them. -/

namespace DoubleEntry

/-- A regular expression. -/
inductive Pattern where
  | empty
  /-- One character. -/
  | one (holds : Char → Bool)
  /-- A position, by the characters in front of it and behind it. -/
  | look (holds : Option Char → Option Char → Bool)
  | seq (first second : Pattern)
  | alt (first second : Pattern)
  /-- At least `least` and, if there is a bound, at most `most` times. -/
  | repeated (body : Pattern) (least : Nat) (most : Option Nat)

namespace Pattern

/-- A set of positions in a text: bit `i` stands for the position behind `i` characters. -/
abbrev Positions := Nat

/-- Where a match may end, for the positions where it starts. -/
structure Transfer where
  apply : Positions → Positions

/-- The positions in front of the characters that satisfy `holds`. -/
def positionsBefore (holds : Char → Bool) (text : List Char) : Positions :=
  text.foldr (fun c later => (if holds c then 1 else 0) + 2 * later) 0

/-- The positions whose neighbours satisfy `holds`, `previous` being the character in front. -/
def positionsBetween (holds : Option Char → Option Char → Bool) :
    Option Char → List Char → Positions
  | previous, [] => if holds previous none then 1 else 0
  | previous, c :: rest =>
    (if holds previous (some c) then 1 else 0) + 2 * positionsBetween holds (some c) rest

/-- Takes `step` the given number of times, or until it changes nothing. -/
def iterate (step : Positions → Positions) : Nat → Positions → Positions
  | 0, start => start
  | count + 1, start =>
    let next := step start
    if next == start then start else iterate step count next

/-- Where a match of a pattern in a text may end. -/
def transfer (text : List Char) : Pattern → Transfer
  | empty => ⟨id⟩
  | one holds =>
    let mask := positionsBefore holds text
    ⟨fun start => (start &&& mask) <<< 1⟩
  | look holds =>
    let mask := positionsBetween holds none text
    ⟨fun start => start &&& mask⟩
  | seq first second =>
    let first := first.transfer text
    let second := second.transfer text
    ⟨fun start => second.apply (first.apply start)⟩
  | alt first second =>
    let first := first.transfer text
    let second := second.transfer text
    ⟨fun start => first.apply start ||| second.apply start⟩
  | repeated body least most =>
    let body := body.transfer text
    let more := match most with
      | none => text.length + 1
      | some most => most - least
    ⟨fun start =>
      iterate (fun start => start ||| body.apply start) more (iterate body.apply least start)⟩

def allPositions (text : List Char) : Positions := 1 <<< (text.length + 1) - 1

/-- Whether the pattern matches somewhere in the text. -/
def isMatch (pattern : Pattern) (text : String) : Bool :=
  let text := text.toList
  (pattern.transfer text).apply (allPositions text) != 0

end Pattern

end DoubleEntry

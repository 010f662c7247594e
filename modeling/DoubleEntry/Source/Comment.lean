import DoubleEntry.Text.Blank

/-! Comments run from a marker to the end of the line. A backslash in front of a marker makes it an
ordinary character. -/

namespace DoubleEntry.Source

def commentMarkers : List Char := [';', '#', '%', '|', '*']

def isCommentMarker (c : Char) : Bool := commentMarkers.contains c

/-- The text before the first marker that is not escaped, without the escaping backslashes. -/
def unescaped : List Char → List Char
  | [] => []
  | ['\\'] => ['\\']
  | '\\' :: c :: rest =>
    if isCommentMarker c then c :: unescaped rest else '\\' :: unescaped (c :: rest)
  | c :: rest => if isCommentMarker c then [] else c :: unescaped rest

/-- The text of a line without its comment and without blanks at its end. -/
def stripComment (line : List Char) : List Char := Text.trimEnd (unescaped line)

end DoubleEntry.Source

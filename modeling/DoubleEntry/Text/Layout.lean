/-! Laying texts out in lines and columns. Widths count characters. -/

namespace DoubleEntry.Text

def blanks (count : Nat) : String := String.ofList (List.replicate count ' ')

/-- Fills a text up to `width` with blanks on its right; a wider text is left as it is. -/
def padRight (width : Nat) (text : String) : String := text ++ blanks (width - text.length)

/-- Fills a text up to `width` with blanks on its left; a wider text is left as it is. -/
def padLeft (width : Nat) (text : String) : String := blanks (width - text.length) ++ text

def joinLines (lines : List String) : String := "\n".intercalate lines

/-- Cuts at every `feed`, which ends a line together with a `ret` in front of it. Nothing follows
the last `feed` if the text ends there; a `ret` elsewhere is part of its line. -/
def splitLines {α : Type} [BEq α] (feed ret : α) (text : List α) : List (List α) :=
  let parts := text.splitOn feed
  let ended := parts.dropLast.map fun line =>
    if line.getLast?.any (· == ret) then line.dropLast else line
  match parts.getLast? with
  | none | some [] => ended
  | some last => ended ++ [last]

def lines (text : List Char) : List (List Char) := splitLines '\n' '\r' text

end DoubleEntry.Text

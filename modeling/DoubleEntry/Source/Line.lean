import DoubleEntry.ParseError
import DoubleEntry.Source.Comment

/-! Lines of a journal, each with the place where it was found. -/

namespace DoubleEntry.Source

/-- A line of a source, counted from one. -/
structure Line where
  source : String
  number : Nat
  text : List Char
  deriving DecidableEq

def Line.location (line : Line) : Location := ⟨line.source, line.number⟩

def memoryName : String := "<memory>"

/-- Lines up to the end of a journal, or up to the error that ends it. -/
structure Feed where
  lines : List Line
  error : Option ParseError := none
  deriving DecidableEq

/-- The lines that have a meaning: without comments, and not empty. -/
def Feed.meaningful (feed : Feed) : Feed :=
  let stripped := feed.lines.map fun line => { line with text := stripComment line.text }
  { feed with lines := stripped.filter fun line => !line.text.isEmpty }

def Feed.ofLines (texts : List (List Char)) : Feed :=
  { lines := texts.mapIdx fun index text => ⟨memoryName, index + 1, text⟩ }

end DoubleEntry.Source

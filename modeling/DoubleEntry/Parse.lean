import DoubleEntry.Record
import DoubleEntry.Source.Include

/-! Parsing journals: the lines of a text or of a file, with what they include, as directives. -/

namespace DoubleEntry

/-- The directives of a text held in memory; includes are seen from the working directory. -/
def Reading.ofText (fs : FileSystem) (text : String) : Reading :=
  .ofFeed (Source.Feed.ofText fs text.toList ".").meaningful

def Reading.ofFile (fs : FileSystem) (path : String) : Except ParseError Reading :=
  (Source.Feed.ofFile fs path).map fun feed => .ofFeed feed.meaningful

def parseText (fs : FileSystem) (text : String) : Except ParseError (List Located) :=
  (Reading.ofText fs text).toExcept

def parseFile (fs : FileSystem) (path : String) : Except ParseError (List Located) :=
  Reading.ofFile fs path >>= Reading.toExcept

end DoubleEntry

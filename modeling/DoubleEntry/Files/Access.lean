import DoubleEntry.Files.Wildcard

/-! What reading a journal asks of a file system. Links, permissions and the rules of patterns are
left to whoever answers; only the files must be finitely many. -/

namespace DoubleEntry

/-- Answers about files: which place a path leads to, the lines of what is there or why it cannot be
opened, the paths that a pattern stands for unless it is none, and whether a path leads to a file.
Any number of paths may lead to one place. -/
structure FileAccess where
  locate : String → Except FileFault Place
  linesAt : Place → Except FileFault (List (Except FileFault (List Char)))
  expand? : String → Option (List String)
  isFile : String → Bool
  places : List Place
  mem_places : ∀ {place lines}, linesAt place = .ok lines → place ∈ places

namespace FileSystem

/-- The lines of what a place holds. Everything there is can be opened. -/
def linesAt (fs : FileSystem) (place : Place) :
    Except FileFault (List (Except FileFault (List Char))) :=
  match fs.entryAt? place with
  | none => .error .notFound
  | some entry => .ok entry.lines

theorem mem_places_of_linesAt {fs : FileSystem} {place : Place}
    {lines : List (Except FileFault (List Char))} (opened : fs.linesAt place = .ok lines) :
    place ∈ fs.places := by
  unfold linesAt at opened
  split at opened
  · cases opened
  case h_2 found => exact mem_places_of_entryAt? found

/-- The answers of a file system without links. -/
def access (fs : FileSystem) : FileAccess where
  locate := fs.resolve
  linesAt := fs.linesAt
  expand? := Wildcard.expand? fs
  isFile := fs.isFile
  places := fs.places
  mem_places := mem_places_of_linesAt

instance : Coe FileSystem FileAccess := ⟨access⟩

end FileSystem

end DoubleEntry

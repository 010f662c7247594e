import DoubleEntry.Files.Path
import DoubleEntry.ParseError
import DoubleEntry.SortedMap
import DoubleEntry.Text.Layout

/-! File systems as values: which files and directories there are, and what the files hold. There
are no links, so every place has one path from the root. -/

namespace DoubleEntry

/-- Names of directories from the root down, and of what is in the last of them. -/
abbrev Place := List String

def Place.path (place : Place) : String :=
  if place.isEmpty then "/" else String.join (place.map ("/" ++ ·))

/-- The directories on the way to a place, without the root and with the place itself. -/
def Place.ancestors : Place → List Place
  | [] => []
  | name :: rest => [name] :: (ancestors rest).map (name :: ·)

/-- What a place holds. -/
inductive Entry where
  | file (data : List UInt8)
  | directory
  deriving DecidableEq

def decodeText? (data : List UInt8) : Option String := String.fromUTF8? ⟨data.toArray⟩

/-- The lines of a file, each as it is decoded on its own. -/
def decodeLines (data : List UInt8) : List (Except FileFault (List Char)) :=
  (Text.splitLines 10 13 data).map fun line =>
    match decodeText? line with
    | some text => .ok text.toList
    | none => .error .notText

/-- The lines that reading an entry gives. A directory can be opened and not read. -/
def Entry.lines : Entry → List (Except FileFault (List Char))
  | .file data => decodeLines data
  | .directory => [.error .isDirectory]

/-- The entries below the root, and the directory where relative paths start. -/
structure FileSystem where
  entries : SortedMap Place Entry
  workDir : Place

namespace FileSystem

def makeDirectory (fs : FileSystem) (place : Place) : FileSystem :=
  if (fs.entries.find? place).isSome then fs
  else { fs with entries := fs.entries.insert place .directory }

def makeDirectories (fs : FileSystem) (places : List Place) : FileSystem :=
  places.foldl makeDirectory fs

def ofWorkDir (workDir : Place) : FileSystem :=
  makeDirectories ⟨∅, workDir⟩ (Place.ancestors workDir)

def places (fs : FileSystem) : List Place := [] :: fs.entries.keys

/-- What a place holds. The root is a directory. -/
def entryAt? (fs : FileSystem) (place : Place) : Option Entry :=
  if place.isEmpty then some .directory else fs.entries.find? place

/-- Goes on from a place by one part of a path. Only a directory can be left by a slash. -/
def follow (fs : FileSystem) (place : Place) (part : String) : Except FileFault Place :=
  match fs.entryAt? place with
  | none => .error .notFound
  | some (.file _) => .error .notDirectory
  | some .directory =>
    if !Path.isProper part then .ok place
    else if part == ".." then .ok place.dropLast
    else if (fs.entryAt? (place ++ [part])).isSome then .ok (place ++ [part])
    else .error .notFound

/-- The place that a path names, if it holds something. -/
def resolve (fs : FileSystem) (path : String) : Except FileFault Place :=
  if path.isEmpty then .error .notFound
  else
    let start := if Path.isAbsolute path then [] else fs.workDir
    (Path.parts path).foldlM fs.follow start

def entryOf? (fs : FileSystem) (path : String) : Option Entry :=
  match fs.resolve path with
  | .ok place => fs.entryAt? place
  | .error _ => none

def isDirectory (fs : FileSystem) (path : String) : Bool := fs.entryOf? path == some .directory

def isFile (fs : FileSystem) (path : String) : Bool :=
  match fs.entryOf? path with
  | some (.file _) => true
  | _ => false

/-- What a directory holds at any depth, each by the names that lead to it from there. -/
def below (fs : FileSystem) (place : Place) : List Place :=
  fs.entries.keys.filterMap fun inner =>
    if place.isPrefixOf inner && place != inner then some (inner.drop place.length) else none

def children (fs : FileSystem) (place : Place) : List String :=
  (fs.below place).filterMap fun
    | [name] => some name
    | _ => none

/-- The place of a path, whether it holds something or not. -/
def placeOf (fs : FileSystem) (path : String) : Place :=
  let start := if Path.isAbsolute path then [] else fs.workDir
  (Path.parts path).foldl (fun place part =>
    if !Path.isProper part then place
    else if part == ".." then place.dropLast
    else place ++ [part]) start

/-- Puts an entry at a path, with the directories that lead to it. -/
def write (fs : FileSystem) (path : String) (entry : Entry) : FileSystem :=
  let place := fs.placeOf path
  let fs := fs.makeDirectories (Place.ancestors place.dropLast)
  { fs with entries := fs.entries.insert place entry }

def remove (fs : FileSystem) (path : String) : FileSystem :=
  let place := fs.placeOf path
  { fs with entries := fs.entries.filter fun inner _ => !place.isPrefixOf inner }

def readText (fs : FileSystem) (path : String) : Except FileFault String := do
  let place ← fs.resolve path
  match fs.entryAt? place with
  | none => .error .notFound
  | some .directory => .error .isDirectory
  | some (.file data) =>
    match decodeText? data with
    | some text => .ok text
    | none => .error .notText

theorem mem_places_of_entryAt? {fs : FileSystem} {place : Place} {entry : Entry}
    (found : fs.entryAt? place = some entry) : place ∈ fs.places := by
  unfold entryAt? at found
  split at found
  · simp_all [places]
  · exact List.mem_cons_of_mem _ (SortedMap.mem_keys_of_find? found)

end FileSystem

end DoubleEntry

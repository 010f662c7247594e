import DoubleEntry.Files.FileSystem
import DoubleEntry.Text.Blank

/-! Patterns of paths. In a part of a path `?` stands for a character, `*` for any characters,
`[..]` and `[!..]` for a character inside or outside some ranges; a part `**` stands for directories
at any depth. -/

namespace DoubleEntry.Wildcard

/-- An element of a pattern. -/
inductive Token where
  | char (c : Char)
  | anyChar
  | anyChars
  | anyDepth
  | within (ranges : List (Char × Char))
  | outside (ranges : List (Char × Char))
  deriving DecidableEq

/-- The ranges between two brackets: `a-z`, or characters that stand for themselves. -/
def rangesOf : List Char → List (Char × Char)
  | low :: '-' :: high :: rest => (low, high) :: rangesOf rest
  | c :: rest => (c, c) :: rangesOf rest
  | [] => []

/-- Reads a pattern, `previous` being the character in front of it. Two stars must make up a part of
the path; three stars and a bracket that is not closed are no pattern. -/
def tokens? (previous : Option Char) : List Char → Option (List Token)
  | [] => some []
  | '?' :: rest => (tokens? (some '?') rest).map (.anyChar :: ·)
  | '*' :: '*' :: '*' :: _ => none
  | '*' :: '*' :: rest =>
    if previous.any (· != '/') then none
    else match rest with
      | [] => some [.anyDepth]
      | '/' :: rest => (tokens? (some '/') rest).map (.anyDepth :: ·)
      | _ => none
  | '*' :: rest => (tokens? (some '*') rest).map (.anyChars :: ·)
  | '[' :: '!' :: first :: rest =>
    match cut : Text.cutAt (· == ']') rest with
    | none => none
    | some (inside, rest') =>
      have := Text.length_of_cutAt cut
      (tokens? (some ']') rest').map (.outside (rangesOf (first :: inside)) :: ·)
  | '[' :: first :: rest =>
    if first == '!' then none
    else match cut : Text.cutAt (· == ']') rest with
      | none => none
      | some (inside, rest') =>
        have := Text.length_of_cutAt cut
        (tokens? (some ']') rest').map (.within (rangesOf (first :: inside)) :: ·)
  | ['['] => none
  | c :: rest => (tokens? (some c) rest).map (.char c :: ·)
termination_by text => text.length
decreasing_by all_goals simp_all <;> omega

def inRanges (ranges : List (Char × Char)) (c : Char) : Bool :=
  ranges.any fun range => range.1 ≤ c && c ≤ range.2

/-- Whether a pattern stands for a name. -/
def stands : List Token → List Char → Bool
  | [], name => name.isEmpty
  | .anyChars :: rest, name | .anyDepth :: rest, name =>
    (List.range (name.length + 1)).any fun count => stands rest (name.drop count)
  | .char c :: rest, name => name.head? == some c && stands rest name.tail
  | .anyChar :: rest, name => !name.isEmpty && stands rest name.tail
  | .within ranges :: rest, name => name.head?.any (inRanges ranges) && stands rest name.tail
  | .outside ranges :: rest, name =>
    name.head?.any (fun c => !inRanges ranges c) && stands rest name.tail

/-- The name that a pattern without wildcards stands for. -/
def literal? : List Token → Option (List Char)
  | [] => some []
  | .char c :: rest => (literal? rest).map (c :: ·)
  | _ => none

/-- A name in a directory, which is left out of the path if it is the current one. -/
def child (path name : String) : String :=
  if Path.orderKey path == Path.orderKey "." then name else Path.join path name

/-- The paths from a directory on that the parts of a pattern stand for. -/
def search (fs : FileSystem) (onlyDirectories : Bool) : List (List Token) → String → List String
  | [], path => if onlyDirectories && !fs.isDirectory path then [] else [path]
  | part :: rest, path =>
    match literal? part with
    | some name =>
      let name := String.ofList name
      let next := child path name
      let found :=
        if name == "." || name == ".." then fs.isDirectory path else (fs.entryOf? next).isSome
      if found then search fs onlyDirectories rest next else []
    | none =>
      match fs.resolve path with
      | .error _ => []
      | .ok place =>
        if fs.entryAt? place != some .directory then []
        else if part == [.anyDepth] then
          match rest with
          | [] =>
            (fs.below place).filterMap fun inner =>
              let next := child path ("/".intercalate inner)
              if fs.isDirectory next then some next else none
          | last :: rest' =>
            if last == [.anyDepth] then search fs onlyDirectories (last :: rest') path
            else (fs.below place).flatMap fun inner =>
              if stands last ((inner.getLast?.getD "").toList) then
                search fs onlyDirectories rest' (child path ("/".intercalate inner))
              else []
        else
          let named := (fs.children place).filter fun name => stands part name.toList
          let special := if part.head? == some (.char '.') then [".", ".."] else []
          named.flatMap (fun name => search fs onlyDirectories rest (child path name)) ++
            (special.filter fun name => stands part name.toList).flatMap fun name =>
              search fs onlyDirectories rest (Path.join path name)

/-- The parts of a relative path; a slash at the end adds none. -/
def partsOf (path : List Char) : List (List Char) :=
  let parts := path.splitOn '/'
  if parts.getLast? == some [] then parts.dropLast else parts

/-- Every path that a pattern stands for; none for a text that is no pattern. -/
def expand? (fs : FileSystem) (pattern : String) : Option (List String) := do
  let text := pattern.toList
  let _ ← tokens? none text
  let absolute := Path.isAbsolute pattern
  let parts ← (partsOf (if absolute then text.drop 1 else text)).mapM (tokens? none)
  let start := if absolute then "/" else "."
  return search fs (text.getLast? == some '/') parts start

end DoubleEntry.Wildcard

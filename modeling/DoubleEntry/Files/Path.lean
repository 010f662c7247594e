/-! Paths as they are written, with slashes. A path is shown as it was written; two paths are
ordered part by part. -/

namespace DoubleEntry.Path

def isAbsolute (path : String) : Bool := path.toList.head? == some '/'

def parts (path : String) : List String := (path.toList.splitOn '/').map String.ofList

/-- The path `target` seen from the directory `dir`. -/
def join (dir target : String) : String :=
  if isAbsolute target || dir.isEmpty then target
  else if dir.toList.getLast? == some '/' then dir ++ target
  else dir ++ "/" ++ target

/-- A part that names something, as opposed to an empty one or a dot. -/
def isProper (part : String) : Bool := part != "" && part != "."

/-- The path without its last proper part; none for a path that has no such part. -/
def parent? (path : String) : Option String :=
  let kept := (parts path).reverse.dropWhile fun part => !isProper part
  match kept with
  | [] => if path == "." || path.startsWith "./" then some "" else none
  | _ :: above =>
    let above := above.dropWhile fun part => !isProper part
    if above.isEmpty then
      if isAbsolute path then some "/" else if path.startsWith "./" then some "." else some ""
    else some ("/".intercalate above.reverse)

/-- Where a part stands in the order of paths: the root, a leading dot, `..`, then names. -/
def partKey (index : Nat) (part : String) : Option (Nat × String) :=
  if part == "" then if index == 0 then some (0, "") else none
  else if part == "." then if index == 0 then some (1, "") else none
  else if part == ".." then some (2, "")
  else some (3, part)

/-- What a path is ordered by: its parts, without empty parts and dots inside it. -/
def orderKey (path : String) : List (Nat × String) :=
  if path.isEmpty then [] else ((parts path).mapIdx partKey).filterMap id

/-- Whether the first path does not come after the second. -/
def ordered (first second : String) : Bool :=
  (@compare _ (@List.instOrd _ lexOrd) (orderKey first) (orderKey second)).isLE

/-- Paths in order; paths with the same parts stay in the order given. -/
def sort (paths : List String) : List String := paths.mergeSort ordered

end DoubleEntry.Path

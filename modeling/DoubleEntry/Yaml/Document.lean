import DoubleEntry.Yaml.Node

/-! What documents say: sections with named fields, lists, texts and numbers. An alias says what the
node that it refers to says. -/

namespace DoubleEntry.Yaml

/-- The names of anchors, and the numbers that they stand for. -/
abbrev Numbering := List (Name × Nat)

/-- Numbers an anchor by how many names there have been; the name stands for that number from now
on. -/
def Numbering.add (numbering : Numbering) : Option Name → Option Nat × Numbering
  | none => (none, numbering)
  | some name =>
    (some numbering.length, (name, numbering.length) :: numbering.filter (·.1 != name))

mutual

/-- The node with numbers for the names in it, an alias having the number of its name at that
point. -/
def Node.number (numbering : Numbering) : Node Name → Option (Node Nat × Numbering)
  | .scalar anchor tag style text =>
    let (anchor, numbering) := numbering.add anchor
    some (.scalar anchor tag style text, numbering)
  | .sequence anchor items => do
    let (anchor, numbering) := numbering.add anchor
    let (items, numbering) ← numberItems numbering items
    return (.sequence anchor items, numbering)
  | .mapping anchor entries => do
    let (anchor, numbering) := numbering.add anchor
    let (entries, numbering) ← numberEntries numbering entries
    return (.mapping anchor entries, numbering)
  | .alias name => do return (.alias (← numbering.lookup name), numbering)

def numberItems (numbering : Numbering) :
    List (Node Name) → Option (List (Node Nat) × Numbering)
  | [] => some ([], numbering)
  | item :: items => do
    let (item, numbering) ← item.number numbering
    let (items, numbering) ← numberItems numbering items
    return (item :: items, numbering)

def numberEntries (numbering : Numbering) :
    List (Node Name × Node Name) → Option (List (Node Nat × Node Nat) × Numbering)
  | [] => some ([], numbering)
  | (key, value) :: entries => do
    let (key, numbering) ← key.number numbering
    let (value, numbering) ← value.number numbering
    let (entries, numbering) ← numberEntries numbering entries
    return ((key, value) :: entries, numbering)

end

mutual

/-- The last node with an anchor of this number. -/
def Node.anchored? (number : Nat) : Node Nat → Option (Node Nat)
  | .scalar anchor tag style text =>
    if anchor == some number then some (.scalar anchor tag style text) else none
  | .sequence anchor items =>
    (anchoredInItems? number items).or
      (if anchor == some number then some (.sequence anchor items) else none)
  | .mapping anchor entries =>
    (anchoredInEntries? number entries).or
      (if anchor == some number then some (.mapping anchor entries) else none)
  | .alias _ => none

/-- The last node in a list with an anchor of this number. -/
def anchoredInItems? (number : Nat) : List (Node Nat) → Option (Node Nat)
  | [] => none
  | item :: items => (anchoredInItems? number items).or (item.anchored? number)

/-- The last key or value in a list with an anchor of this number. -/
def anchoredInEntries? (number : Nat) : List (Node Nat × Node Nat) → Option (Node Nat)
  | [] => none
  | (key, value) :: entries =>
    (anchoredInEntries? number entries).or ((value.anchored? number).or (key.anchored? number))

end

structure Document where
  root : Node Nat

/-- Fields by name, in the order in which they are written. -/
abbrev Section := List (String × Node Nat)

/-- The field of a name. It is an error to write it twice. -/
def Section.field? (fields : Section) (name : String) : Option (Option (Node Nat)) :=
  match fields.filter (·.1 == name) with
  | [] => some none
  | [(_, node)] => some (some node)
  | _ => none

/-- Whether a plain text stands for the absence of a value. -/
def isNullWord (text : List Char) : Bool :=
  ["~", "null", "Null", "NULL"].contains (String.ofList text)

/-- Digits in a base as a number; there has to be one. -/
def digits? (base : Nat) (digits : List Char) : Option Nat :=
  if digits.isEmpty then none
  else digits.foldlM
    (fun number c => ((hexDigit? c).filter (· < base)).map (base * number + ·)) 0

/-- Reads a number without a sign, or with a plus sign. Its base is 10, or it is written in front of
the digits. Digits in base 10 do not start with a zero. -/
def number? (text : List Char) : Option Nat :=
  let digits := if text.head? == some '+' then text.drop 1 else text
  match digits with
  | '0' :: 'x' :: rest => digits? 16 rest
  | '0' :: 'o' :: rest => digits? 8 rest
  | '0' :: 'b' :: rest => digits? 2 rest
  | ['0'] => some 0
  | '0' :: _ => none
  | _ => digits? 10 digits

namespace Document

/-- The document that a text consists of. A text without content is like an omitted node. -/
def ofText? (text : String) : Option Document := do
  let node ← documentNode text
  let (root, _) ← (node.getD Node.omitted).number []
  return { root }

/-- The node that an alias refers to; another node itself. -/
def target (document : Document) : Node Nat → Node Nat
  | .alias number => (document.root.anchored? number).getD (.alias number)
  | node => node

/-- The fields of a section. An omitted one has none. -/
def section? (document : Document) (node : Node Nat) : Option Section :=
  match document.target node with
  | .mapping _ entries => entries.mapM fun (key, value) =>
    match document.target key with
    | .scalar _ _ _ name => some (String.ofList name, value)
    | _ => none
  | .scalar _ _ .plain [] => some []
  | _ => none

/-- The items of a list. An omitted one has none. -/
def items? (document : Document) (node : Node Nat) : Option (List (Node Nat)) :=
  match document.target node with
  | .sequence _ items => some items
  | .scalar _ _ .plain [] => some []
  | _ => none

def text? (document : Document) (node : Node Nat) : Option String :=
  match document.target node with
  | .scalar _ _ _ text => some (String.ofList text)
  | _ => none

/-- The text of a scalar that may say that there is none: plain and empty, or a null word. A plain
scalar with a tag says so only if that is the tag of null words, which admits nothing else. -/
def optionalText? (document : Document) (node : Node Nat) : Option (Option String) :=
  match document.target node with
  | .scalar _ tag .plain text =>
    match tag with
    | none =>
      if text.isEmpty || isNullWord text then some none else some (some (String.ofList text))
    | some tag =>
      if tag != "tag:yaml.org,2002:null".toList then some (some (String.ofList text))
      else if isNullWord text then some none
      else none
  | node => (document.text? node).map some

/-- The number below `limit` that a plain scalar denotes, or a literal block with the tag of
integers. -/
def number? (document : Document) (limit : Nat) (node : Node Nat) : Option Nat :=
  match document.target node with
  | .scalar _ tag style text =>
    if style == .plain || (style == .literal && tag == some "tag:yaml.org,2002:int".toList) then
      (Yaml.number? text).filter (· < limit)
    else none
  | _ => none

end Document

end DoubleEntry.Yaml

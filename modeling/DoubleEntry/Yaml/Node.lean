import DoubleEntry.Yaml.Layout

/-! Documents as trees of nodes. A collection takes its items one after the other; where an item,
key or value is left out, an empty plain scalar stands in its place. -/

namespace DoubleEntry.Yaml

/-- A node, with the labels that it bears as an anchor or refers to as an alias. -/
inductive Node (Label : Type) where
  | scalar (anchor : Option Label) (tag : Option (List Char)) (style : ScalarStyle)
      (text : List Char)
  | sequence (anchor : Option Label) (items : List (Node Label))
  | mapping (anchor : Option Label) (entries : List (Node Label × Node Label))
  | alias (label : Label)

abbrev Name := List Char

def Node.omitted : Node Name := .scalar none none .plain []

/-- The directives of a document: whether it names a version, and what its handles mean. -/
structure Directives where
  version : Bool := false
  handles : List (List Char × List Char) := []

namespace Directives

def add (directives : Directives) : Directive → Option Directives
  | .version => if directives.version then none else some { directives with version := true }
  | .tagHandle handle meaning =>
    if (directives.handles.lookup handle).isSome then none
    else some { directives with handles := (handle, meaning) :: directives.handles }

/-- What a handle means; two have a meaning without a directive. -/
def meaning? (directives : Directives) (handle : List Char) : Option (List Char) :=
  match directives.handles.lookup handle with
  | some meaning => some meaning
  | none =>
    if handle == ['!'] then some ['!']
    else if handle == ['!', '!'] then some "tag:yaml.org,2002:".toList
    else none

def resolve (directives : Directives) (tag : Tag) : Option (List Char) :=
  if tag.handle.isEmpty then some tag.rest
  else (directives.meaning? tag.handle).map (· ++ tag.rest)

end Directives

/-- Where a node stands. Only in a block may block collections start, and only as a key or value of
a block mapping may a sequence do without an indentation of its own. -/
inductive Place where
  | item
  | entry
  | flow
  deriving DecidableEq

/-- The anchor and the tag in front of a node. -/
structure Properties where
  anchor : Option Name := none
  tag : Option (List Char) := none

/-- Reads an anchor and a tag, each at most once and in either order. -/
def Properties.read (directives : Directives) :
    List Token → Option (Properties × List Token)
  | .anchor name :: .tag tag :: rest | .tag tag :: .anchor name :: rest => do
    return ({ anchor := some name, tag := some (← directives.resolve tag) }, rest)
  | .anchor name :: rest => some ({ anchor := some name }, rest)
  | .tag tag :: rest => do return ({ tag := some (← directives.resolve tag) }, rest)
  | rest => some ({}, rest)

/-- A plain scalar has no tag if the tag is `!`. -/
def Properties.scalarTag (properties : Properties) : Option (List Char) :=
  properties.tag.filter (· != ['!'])

mutual

def readNode (directives : Directives) :
    (fuel : Nat) → Place → List Token → Option (Node Name × List Token)
  | 0, _, _ => none
  | fuel + 1, place, tokens =>
    match tokens with
    | .alias name :: rest => some (.alias name, rest)
    | tokens => do
      let (properties, tokens) ← Properties.read directives tokens
      let { anchor, tag } := properties
      match tokens, place with
      | .entry :: _, .entry =>
        let (items, rest) ← readPlainItems directives fuel tokens
        return (.sequence anchor items, rest)
      | .scalar style text :: rest, _ =>
        return (.scalar anchor properties.scalarTag style text, rest)
      | .flowSequenceStart :: rest, _ =>
        let (items, rest) ← readFlowItems directives fuel true rest
        return (.sequence anchor items, rest)
      | .flowMappingStart :: rest, _ =>
        let (entries, rest) ← readFlowEntries directives fuel true rest
        return (.mapping anchor entries, rest)
      | .blockSequenceStart :: rest, .item | .blockSequenceStart :: rest, .entry =>
        let (items, rest) ← readItems directives fuel rest
        return (.sequence anchor items, rest)
      | .blockMappingStart :: rest, .item | .blockMappingStart :: rest, .entry =>
        let (entries, rest) ← readEntries directives fuel rest
        return (.mapping anchor entries, rest)
      | rest, _ =>
        if anchor.isSome || tag.isSome then return (.scalar anchor tag .plain [], rest) else none

def readItems (directives : Directives) :
    (fuel : Nat) → List Token → Option (List (Node Name) × List Token)
  | 0, _ => none
  | fuel + 1, tokens =>
    match tokens with
    | .blockEnd :: rest => some ([], rest)
    | .entry :: rest => do
      let (item, rest) ← match rest with
        | .entry :: _ | .blockEnd :: _ => some (Node.omitted, rest)
        | _ => readNode directives fuel .item rest
      let (items, rest) ← readItems directives fuel rest
      return (item :: items, rest)
    | _ => none

/-- Reads the items of a sequence without an indentation of its own. -/
def readPlainItems (directives : Directives) :
    (fuel : Nat) → List Token → Option (List (Node Name) × List Token)
  | 0, _ => none
  | fuel + 1, tokens =>
    match tokens with
    | .entry :: rest => do
      let (item, rest) ← match rest with
        | .entry :: _ | .key :: _ | .value :: _ | .blockEnd :: _ => some (Node.omitted, rest)
        | _ => readNode directives fuel .item rest
      let (items, rest) ← readPlainItems directives fuel rest
      return (item :: items, rest)
    | rest => some ([], rest)

/-- Reads a key or value of a block mapping behind its mark. -/
def readEntryNode (directives : Directives) :
    (fuel : Nat) → List Token → Option (Node Name × List Token)
  | 0, _ => none
  | fuel + 1, tokens =>
    match tokens with
    | .key :: _ | .value :: _ | .blockEnd :: _ => some (Node.omitted, tokens)
    | _ => readNode directives fuel .entry tokens

def readEntries (directives : Directives) :
    (fuel : Nat) → List Token → Option (List (Node Name × Node Name) × List Token)
  | 0, _ => none
  | fuel + 1, tokens =>
    match tokens with
    | .blockEnd :: rest => some ([], rest)
    | .key :: rest => do
      let (key, rest) ← readEntryNode directives fuel rest
      let (value, rest) ← match rest with
        | .value :: rest => readEntryNode directives fuel rest
        | rest => some (Node.omitted, rest)
      let (entries, rest) ← readEntries directives fuel rest
      return ((key, value) :: entries, rest)
    | _ => none

/-- Reads the value of an entry between brackets, if there is one. -/
def readFlowValue (directives : Directives) :
    (fuel : Nat) → List Token → Option (Node Name × List Token)
  | 0, _ => none
  | fuel + 1, tokens =>
    match tokens with
    | .value :: rest =>
      match rest with
      | .flowEntry :: _ | .flowSequenceEnd :: _ | .flowMappingEnd :: _ => some (Node.omitted, rest)
      | _ => readNode directives fuel .flow rest
    | rest => some (Node.omitted, rest)

/-- Reads the items of a sequence between brackets. An item may be an entry, which stands for a
mapping of its own. -/
def readFlowItems (directives : Directives) :
    (fuel : Nat) → (first : Bool) → List Token → Option (List (Node Name) × List Token)
  | 0, _, _ => none
  | fuel + 1, first, tokens =>
    match tokens, first with
    | .flowSequenceEnd :: rest, _ => some ([], rest)
    | .flowEntry :: .flowSequenceEnd :: rest, false => some ([], rest)
    | .flowEntry :: .key :: rest, false | .key :: rest, true => do
      let (key, rest) ← match rest with
        | .value :: rest | .flowEntry :: rest | .flowSequenceEnd :: rest =>
          some (Node.omitted, rest)
        | _ => readNode directives fuel .flow rest
      let (value, rest) ← readFlowValue directives fuel rest
      let (items, rest) ← readFlowItems directives fuel false rest
      return (.mapping none [(key, value)] :: items, rest)
    | .flowEntry :: rest, false | rest, true => do
      let (item, rest) ← readNode directives fuel .flow rest
      let (items, rest) ← readFlowItems directives fuel false rest
      return (item :: items, rest)
    | _, false => none

/-- Reads the entries of a mapping between braces. A key may stand without a value. -/
def readFlowEntries (directives : Directives) :
    (fuel : Nat) → (first : Bool) → List Token →
      Option (List (Node Name × Node Name) × List Token)
  | 0, _, _ => none
  | fuel + 1, first, tokens =>
    match tokens, first with
    | .flowMappingEnd :: rest, _ => some ([], rest)
    | .flowEntry :: .flowMappingEnd :: rest, false => some ([], rest)
    | .flowEntry :: .key :: rest, false | .key :: rest, true => do
      let (key, rest) ← match rest with
        | .value :: _ | .flowEntry :: _ | .flowMappingEnd :: _ => some (Node.omitted, rest)
        | _ => readNode directives fuel .flow rest
      let (value, rest) ← readFlowValue directives fuel rest
      let (entries, rest) ← readFlowEntries directives fuel false rest
      return ((key, value) :: entries, rest)
    | .flowEntry :: rest, false | rest, true => do
      let (key, rest) ← readNode directives fuel .flow rest
      let (entries, rest) ← readFlowEntries directives fuel false rest
      return ((key, Node.omitted) :: entries, rest)
    | _, false => none

end

def Directives.read : Directives → List Token → Option (Directives × List Token)
  | directives, .directive directive :: rest => do (← directives.add directive).read rest
  | directives, rest => some (directives, rest)

def readDocument (tokens : List Token) : Option (Node Name) := do
  let (directives, rest) ← Directives.read {} tokens
  let started := match tokens with
    | .directive _ :: _ | .documentStart :: _ => true
    | _ => false
  let content ← match started, rest with
    | true, .documentStart :: content => some content
    | true, _ => none
    | false, content => some content
  let (node, rest) ← match started, content with
    | true, [] | true, .documentEnd :: _ => some (Node.omitted, content)
    | _, content => readNode directives (2 * content.length + 2) .item content
  match rest.dropWhile fun token => token matches .documentEnd with
  | [] => return node
  | _ => none

/-- The node that a text consists of, if it is a single document. A text without tokens has none. -/
def documentNode (text : String) : Option (Option (Node Name)) := do
  let tokens ← tokens text
  if tokens.isEmpty then return none
  return some (← readDocument tokens)

end DoubleEntry.Yaml

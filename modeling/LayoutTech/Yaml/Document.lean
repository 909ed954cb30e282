import LayoutTech.Yaml.Node
import LayoutTech.Yaml.Token.Row

/-!
# Documents

A text is one document: directives, a root node and markers. Anchors are numbered: the number of an anchor is
how many names have been in use before it, and an alias stands for the last node that got the number its
name has at the alias.
-/

namespace LayoutTech.Yaml

namespace Node

variable {Name : Type}

def mark : Node Name → Mark
  | .scalar p .. => p.mark
  | .sequence p _ => p.mark
  | .mapping p _ => p.mark
  | .alias mark _ => mark

/-- How many steps it takes to go through a node: one for a scalar or an alias, two for the ends of a collection. -/
def size : Node Name → Nat
  | .scalar .. => 1
  | .alias .. => 1
  | .sequence _ items => sizeOfItems items + 2
  | .mapping _ fields => sizeOfFields fields + 2
where
  sizeOfItems : List (Node Name) → Nat
    | [] => 0
    | item :: rest => item.size + sizeOfItems rest
  sizeOfFields : List (Node Name × Node Name) → Nat
    | [] => 0
    | (key, value) :: rest => key.size + value.size + sizeOfFields rest

/-- The nodes that have anchors, by anchor, in the order in which they start. -/
def anchored (node : Node Name) : List (Name × Node Name) :=
  match node with
  | .scalar p _ _ => (p.anchor.map fun a => (a, node)).toList
  | .sequence p items => (p.anchor.map fun a => (a, node)).toList ++ ofItems items
  | .mapping p fields => (p.anchor.map fun a => (a, node)).toList ++ ofFields fields
  | .alias .. => []
where
  ofItems : List (Node Name) → List (Name × Node Name)
    | [] => []
    | item :: rest => item.anchored ++ ofItems rest
  ofFields : List (Node Name × Node Name) → List (Name × Node Name)
    | [] => []
    | (key, value) :: rest => key.anchored ++ value.anchored ++ ofFields rest

end Node

abbrev AnchorNumbers := List (String × Nat)

/-- The numbers once the name is in use again, and its number. -/
def AnchorNumbers.use (names : AnchorNumbers) (name : String) : AnchorNumbers × Nat :=
  let number := names.length
  ((name, number) :: names.filter (·.1 != name), number)

/-- Numbers what is said about a node. -/
def Properties.number (p : Properties String) (names : AnchorNumbers) : AnchorNumbers × Properties Nat :=
  match p.anchor with
  | some name =>
    let (names, number) := names.use name
    (names, ⟨p.mark, some number, p.tag⟩)
  | none => (names, ⟨p.mark, none, p.tag⟩)

namespace Node

/-- Puts numbers in place of names, in a node that is read when the names are in use. -/
def number (names : AnchorNumbers) : Node String → Except SyntaxFault (AnchorNumbers × Node Nat)
  | .scalar p style text =>
    let (names, p) := p.number names
    .ok (names, .scalar p style text)
  | .sequence p items => do
    let (names, p) := p.number names
    let (names, items) ← numberItems names items
    pure (names, .sequence p items)
  | .mapping p fields => do
    let (names, p) := p.number names
    let (names, fields) ← numberFields names fields
    pure (names, .mapping p fields)
  | .alias mark name =>
    match names.lookup name with
    | some number => .ok (names, .alias mark number)
    | none => .error ⟨.unknownAlias, mark⟩
where
  numberItems (names : AnchorNumbers) : List (Node String) → Except SyntaxFault (AnchorNumbers × List (Node Nat))
    | [] => .ok (names, [])
    | item :: rest => do
      let (names, item) ← number names item
      let (names, rest) ← numberItems names rest
      pure (names, item :: rest)
  numberFields (names : AnchorNumbers) :
      List (Node String × Node String) → Except SyntaxFault (AnchorNumbers × List (Node Nat × Node Nat))
    | [] => .ok (names, [])
    | (key, value) :: rest => do
      let (names, key) ← number names key
      let (names, value) ← number names value
      let (names, rest) ← numberFields names rest
      pure (names, (key, value) :: rest)

end Node

/-- A document; one without any content has no root. -/
structure Document where
  root : Option (Node Nat)
  /-- What the numbers of anchors stand for. -/
  anchors : List (Nat × Node Nat)
  /-- Where the text ends. -/
  stop : Mark

namespace Document

/-- The node itself, or the one that it stands for. -/
def resolve (d : Document) (node : Node Nat) : Node Nat :=
  match node with
  | .alias _ number => (d.anchors.lookup number).getD node
  | _ => node

def size (d : Document) : Nat := (d.root.map Node.size).getD 1

def standardHandles : Handles := [("!", "!"), ("!!", "tag:yaml.org,2002:")]

/-- The directives before a document, and what follows them. -/
def directives (version : Bool) (handles : Handles) : List Token → Except SyntaxFault (Handles × List Token)
  | ⟨.version major minor, mark, _⟩ :: rest =>
    if version || major ≠ 1 || (minor ≠ 1 && minor ≠ 2) then .error ⟨.directive, mark⟩
    else directives true handles rest
  | ⟨.tagHandle handle expansion, mark, _⟩ :: rest =>
    if (handles.lookup handle).isSome then .error ⟨.directive, mark⟩
    else directives version (handles ++ [(handle, expansion)]) rest
  | rest => .ok (handles ++ standardHandles, rest)

/-- A token after which there is nothing in a document that was started by a marker. -/
def endsContent : Symbol → Bool
  | .version .. | .tagHandle .. | .documentStart | .documentEnd | .streamEnd => true
  | _ => false

/-- The root of the document, and the tokens after it. A document that has directives starts with a marker. -/
def readRoot (ts : List Token) : Except SyntaxFault (Node String × List Token) := do
  let (handles, rest) ← directives false [] ts
  match rest with
  | ⟨.documentStart, _, _⟩ :: rest =>
    if rest.head?.any fun t => endsContent t.symbol then pure (.absent (startOf rest), rest)
    else
      let node ← Node.read handles .block rest
      pure (node.value, node.rest)
  | rest =>
    if rest.length = ts.length then
      let node ← Node.read handles .block rest
      pure (node.value, node.rest)
    else throw ⟨.documentStart, startOf rest⟩

def isLast (ts : List Token) : Bool :=
  (ts.dropWhile (·.symbol = .documentEnd)).all (·.symbol = .streamEnd)

def ofTokens (ts : List Token) : Except SyntaxFault Document := do
  let stop := (ts.getLast?.map Token.start).getD {}
  if ts.head?.any (·.symbol = .streamEnd) then pure ⟨none, [], stop⟩
  else
    let (node, rest) ← readRoot ts
    let (_, node) ← node.number []
    if isLast rest then pure ⟨some node, node.anchored.reverse, stop⟩
    else throw ⟨.severalDocuments, startOf rest⟩

def ofText (text : List Char) : Except SyntaxFault Document := Token.rowOf text >>= ofTokens

end Document

end LayoutTech.Yaml

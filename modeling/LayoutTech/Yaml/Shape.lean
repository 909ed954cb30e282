import LayoutTech.Number.Shortest
import LayoutTech.Text.Quoted
import LayoutTech.Yaml.Value

/-!
# Shapes

A document with a schema is read from its root down: at each node something is wanted, and the first node
that is something else is the fault. A fault is told with the way to the node and where that is in the text.
-/

namespace LayoutTech.Yaml

inductive Segment where
  | field (key : String)
  | item (index : Nat)
  | otherField
deriving DecidableEq, Repr

def pathText : List Segment → String
  | [] => ""
  | first :: rest => rest.foldl (fun text s => text ++ joined s) (bare first)
where
  bare : Segment → String
    | .field key => key
    | .item index => s!".[{index}]"
    | .otherField => "?"
  joined : Segment → String
    | .item index => s!"[{index}]"
    | s => "." ++ bare s

inductive Misfit where
  | wrongType (found wanted : String)
  | wrongValue (found wanted : String)
  | missingField (name : String)
  | duplicateField (name : String)
  | unknownVariant (word : String) (known : List String)
deriving DecidableEq, Repr

def ticked (word : String) : String := s!"`{word}`"

def Misfit.message : Misfit → String
  | .wrongType found wanted => s!"invalid type: {found}, expected {wanted}"
  | .wrongValue found wanted => s!"invalid value: {found}, expected {wanted}"
  | .missingField name => "missing field " ++ ticked name
  | .duplicateField name => "duplicate field " ++ ticked name
  | .unknownVariant word known =>
    "unknown variant " ++ ticked word ++ ", expected " ++ " or ".intercalate (known.map ticked)

/-- What is wrong with a document, and at which node, once that is known. -/
structure ShapeFault where
  misfit : Misfit
  node : Option (List Segment × Mark) := none
deriving DecidableEq, Repr

namespace ShapeFault

def message (f : ShapeFault) : String :=
  match f.node with
  | some (path, _) =>
    if path.isEmpty then f.misfit.message else pathText path ++ ": " ++ f.misfit.message
  | none => f.misfit.message

def fullMessage (f : ShapeFault) : String := f.message ++ ((f.node.map (·.2.tail)).getD "")

end ShapeFault

/-- What is read from nodes. -/
abbrev Shaped (α : Type) := Except ShapeFault α

/-- A node of a document and the way to it; the node is no alias. -/
structure Cursor where
  document : Document
  path : List Segment
  node : Node Nat

/-- The root of a document; without any content it is an absent scalar. -/
def Document.top (d : Document) : Cursor := ⟨d, [], d.resolve (d.root.getD (.absent d.stop))⟩

namespace Cursor

variable {α : Type}

def below (p : Cursor) (segment : Segment) (node : Node Nat) : Cursor :=
  ⟨p.document, p.path ++ [segment], p.document.resolve node⟩

/-- A fault that has no node yet is a fault of this one. -/
def settle (p : Cursor) (x : Shaped α) : Shaped α :=
  x.mapError fun fault => { fault with node := fault.node.or (some (p.path, p.node.mark)) }

def misfit (p : Cursor) (m : Misfit) : Shaped α := p.settle (.error { misfit := m })

def describe : Atom → String
  | .null => "unit value"
  | .bool b => "boolean " ++ ticked (toString b)
  | .int n =>
    "integer " ++ ticked (toString n) ++ (if Atom.isSmall n then "" else if n < 0 then " as i128" else " as u128")
  | .float x =>
    let text := toString x
    "floating point " ++ ticked (if x.isFinite && !text.contains '.' then text ++ ".0" else text)
  | .text s => "string " ++ Text.quoted s.toList

def kindOf (tag : Option String) : String :=
  if tag = some (commonTag "bool") then "a boolean"
  else if tag = some (commonTag "int") then "an integer"
  else if tag = some (commonTag "float") then "a float"
  else "null"

def unwanted (p : Cursor) (wanted : String) : Shaped α :=
  match p.node with
  | .scalar properties style text =>
    match Atom.ofScalar? properties.tag style text with
    | some atom => p.misfit (.wrongType (describe atom) wanted)
    | none => p.misfit (.wrongValue (describe (.text text)) (kindOf properties.tag))
  | .mapping .. => p.misfit (.wrongType "map" wanted)
  | _ => p.misfit (.wrongType "sequence" wanted)

def isAbsent (p : Cursor) : Bool :=
  match p.node with
  | .scalar _ .plain "" => true
  | _ => false

/-- A text: a scalar of any kind. -/
def text (p : Cursor) (wanted : String := "a string") : Shaped String :=
  match p.node with
  | .scalar _ _ text => .ok text
  | _ => p.unwanted wanted

/-- What may be left out: a null that is not written as a text stands for nothing. -/
def optional (p : Cursor) (read : Cursor → Shaped α) : Shaped (Option α) :=
  match p.node with
  | .scalar properties .plain text =>
    if properties.tag = some (commonTag "null") then
      if Atom.isNull text.toList then .ok none
      else .error { misfit := .wrongValue (describe (.text text)) "null" }
    else if properties.tag.isNone && (text.isEmpty || Atom.isNull text.toList) then .ok none
    else (read p).map some
  | _ => (read p).map some

def items (p : Cursor) (read : Cursor → Shaped α) : Shaped (List α) :=
  match p.node with
  | .sequence _ items => p.settle (items.zipIdx.mapM fun (item, index) => read (p.below (.item index) item))
  | _ => if p.isAbsent then .ok [] else p.unwanted "a sequence"

/-- The segment that leads to the value of a key. -/
def segmentOf : Node Nat → Segment
  | .scalar _ _ key => .field key
  | _ => .otherField

def foldFields (p : Cursor) (wanted keyWanted : String) (start : α)
    (step : α → String → Cursor → Shaped α) : Shaped α :=
  match p.node with
  | .mapping _ fields =>
    p.settle (fields.foldlM (fun state (key, value) => do
      let name ← ({ p with node := p.document.resolve key } : Cursor).text keyWanted
      step state name (p.below (segmentOf key) value)) start)
  | _ => if p.isAbsent then .ok start else p.unwanted wanted

def record (p : Cursor) (kind : String) (start : α) (step : α → String → Cursor → Shaped α) : Shaped α :=
  p.foldFields ("struct " ++ kind) "field identifier" start step

def once (name : String) (before : Option α) (read : Shaped α) : Shaped (Option α) :=
  if before.isSome then .error { misfit := .duplicateField name } else read.map some

/-- A field that may not be left out. -/
def required (p : Cursor) (name : String) (field : Option α) : Shaped α :=
  match field with
  | some value => .ok value
  | none => p.misfit (.missingField name)

/-- A null under a tag, which stands for the tag alone. -/
def nothing (p : Cursor) : Shaped Unit :=
  match p.node with
  | .scalar _ style text =>
    if style = .plain && (text.isEmpty || Atom.isNull text.toList) then .ok ()
    else p.misfit (.wrongValue (describe (.text text)) "null")
  | _ => p.unwanted "unit"

def tag? (p : Cursor) : Option String :=
  match p.node with
  | .scalar properties .. => ownTag? properties.tag
  | .sequence properties _ => ownTag? properties.tag
  | .mapping properties _ => ownTag? properties.tag
  | .alias .. => none

/-- One of the known words: a scalar, or a tag with nothing under it. -/
def word (p : Cursor) (known : List String) : Shaped String :=
  match p.tag?, p.node with
  | some tag, _ => do
    if tag ∉ known then throw { misfit := .unknownVariant tag known }
    p.nothing
    pure tag
  | none, .scalar _ _ text => if text ∈ known then .ok text else p.misfit (.unknownVariant text known)
  | none, _ => p.unwanted "a YAML tag starting with '!'"

end Cursor

end LayoutTech.Yaml

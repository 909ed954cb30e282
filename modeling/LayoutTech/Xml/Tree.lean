import LayoutTech.Xml.Element
import LayoutTech.Xml.Event

/-!
# Elements from events

The events of a document are put together on a stack of open elements. Text counts where it stands
directly inside an element; in an element with children, text that is blank as a whole is only layout
and is dropped when the element closes.
-/

namespace LayoutTech.Xml

inductive Fault where
  | broken (fault : SyntaxFault)
  | afterRoot
  | badAttribute (fault : AttributeFault)
  | badText (fault : EntityFault)
  | textOutside
  | unbalanced
  | mismatched (closing opening : String)
  | unclosed (name : String)
  | noRoot
deriving DecidableEq, Repr

def Fault.message : Fault → String
  | .broken ⟨position, fault⟩ => s!"XML syntax error at position {position}: " ++ fault.message
  | .afterRoot => "Content after the document root element"
  | .badAttribute fault => fault.message
  | .badText fault => "Invalid text content: " ++ fault.message
  | .textOutside => "Text outside of the document root element"
  | .unbalanced => "Unbalanced closing tag"
  | .mismatched closing opening => s!"Closing tag </{closing}> does not match <{opening}>"
  | .unclosed name => s!"Unexpected end of document inside <{name}>"
  | .noRoot => "Document has no root element"

/-- A document that is being put together: the open elements, innermost first, and the finished root. -/
structure OpenDocument where
  opened : List Element
  root : Option Element

namespace OpenDocument

def start : OpenDocument := ⟨[], none⟩

/-- The element as it is when its tag closes. -/
def settled (e : Element) : Element :=
  if !e.children.isEmpty && isBlankText e.text then { e with text := "" } else e

/-- A finished element becomes a child of the element around it, or the root. -/
def close (e : Element) (opened : List Element) (root : Option Element) : OpenDocument :=
  match opened with
  | outer :: rest => ⟨{ outer with children := outer.children ++ [settled e] } :: rest, root⟩
  | [] => ⟨[], some (settled e)⟩

/-- The element that a tag begins; nothing may follow the root. -/
def elementOf (p : OpenDocument) (tag : Tag) : Except Fault Element :=
  if p.root.isSome then .error .afterRoot
  else match tag.attributes with
    | .ok attributes => .ok { name := tag.name, attributes }
    | .error fault => .error (.badAttribute fault)

def addText (p : OpenDocument) (text : String) : OpenDocument :=
  match p.opened with
  | e :: rest => { p with opened := { e with text := e.text ++ text } :: rest }
  | [] => p

def next (p : OpenDocument) : Event → Except Fault OpenDocument
  | .opening tag => do
    let e ← p.elementOf tag
    pure { p with opened := e :: p.opened }
  | .emptyTag tag => do
    let e ← p.elementOf tag
    pure (close e p.opened p.root)
  | .closing name =>
    match p.opened with
    | [] => .error .unbalanced
    | e :: rest => if e.name = name then .ok (close e rest p.root) else .error (.mismatched name e.name)
  | .text content =>
    match content with
    | .error fault => .error (.badText fault)
    | .ok text =>
      if p.opened.isEmpty && !isBlankText text then .error .textOutside else .ok (p.addText text)
  | .cdata content => .ok (p.addText content)
  | .comment => .ok p
  | .instruction => .ok p
  | .declaration => .ok p
  | .doctype => .ok p

def finish (p : OpenDocument) : Except Fault Element :=
  match p.opened, p.root with
  | e :: _, _ => .error (.unclosed e.name)
  | [], some e => .ok e
  | [], none => .error .noRoot

end OpenDocument

namespace Element

def ofEvents (events : List Event) : Except Fault Element :=
  events.foldlM OpenDocument.next .start >>= OpenDocument.finish

/-- The root element of what was read of a document: a fault in the markup comes after the events
before it. -/
def ofReading (reading : Reading) : Except Fault Element :=
  match reading.fault with
  | none => ofEvents reading.events
  | some fault => do
    let _ ← reading.events.foldlM OpenDocument.next .start
    .error (.broken fault)

def parse (document : String) : Except Fault Element := ofReading (.ofText document.toList)

end Element

end LayoutTech.Xml

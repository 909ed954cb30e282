import LayoutTech.Component.Connectivity
import LayoutTech.Xml.Element

/-!
# Components

A technology carries components, at most one of a name. Two kinds have a meaning here; a block of a
document that no codec knows is kept as it is, and a component that was made elsewhere is known by
its name alone.
-/

namespace LayoutTech

inductive Component where
  | connectivity (connections : List Connection) (symbols : List LayerSymbol)
  | view25 (source : String)
  | verbatim (block : Xml.Element)
  | foreign (name description : String)
deriving DecidableEq

namespace Component

def connectivityName : String := "connectivity"

def view25Name : String := "d25"

def name : Component → String
  | .connectivity .. => connectivityName
  | .view25 _ => view25Name
  | .verbatim block => block.name
  | .foreign name _ => name

def description : Component → String
  | .connectivity .. => "Connectivity"
  | .view25 _ => "2.5d View"
  | .verbatim _ => "Unknown component"
  | .foreign _ description => description

/-- What can be changed of a component in place: what its own kind has, and not the kind. -/
inductive Edit where
  | connectivity (change : List Connection × List LayerSymbol → List Connection × List LayerSymbol)
  | view25 (change : String → String)
  | verbatim (change : Xml.Element → Xml.Element)
  | foreign (change : String × String → String × String)

/-- A component of another kind stays as it is. -/
def edit : Edit → Component → Component
  | .connectivity change, .connectivity connections symbols =>
    let (connections, symbols) := change (connections, symbols)
    .connectivity connections symbols
  | .view25 change, .view25 source => .view25 (change source)
  | .verbatim change, .verbatim block => .verbatim (change block)
  | .foreign change, .foreign name description =>
    let (name, description) := change (name, description)
    .foreign name description
  | _, c => c

end Component

end LayoutTech

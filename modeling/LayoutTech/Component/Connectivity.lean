import LayoutTech.Text

/-!
# Connections and symbols

How the layers of a technology are connected: a connection is a row of two layers, or of two layers
with a via between them, and a symbol names a layer expression. Both have a text, in which blanks
around the parts do not count.
-/

namespace LayoutTech

/-- Two connected layers and the layer of the via between them, if there is one. -/
structure Connection where
  layerA : String
  via : Option String
  layerB : String
deriving DecidableEq, Repr

/-- A name for a layer expression. -/
structure LayerSymbol where
  symbol : String
  expression : String
deriving DecidableEq, Repr

/-- Why a text is no connection or no symbol. -/
inductive ConnectivityFault where
  | emptyLayer (text : String)
  | layerCount (text : String)
  | notAnEquation (text : String)
  | noSymbol (text : String)
deriving DecidableEq, Repr

def ConnectivityFault.message : ConnectivityFault → String
  | .emptyLayer text => s!"Empty layer in connection '{text}'"
  | .layerCount text => s!"Connection '{text}' must have two or three layers"
  | .notAnEquation text => s!"Symbol '{text}' is not of the form name=expression"
  | .noSymbol text => s!"Symbol '{text}' has no name"

namespace Connection

def layers (c : Connection) : List String :=
  match c.via with
  | none => [c.layerA, c.layerB]
  | some via => [c.layerA, via, c.layerB]

def toText (c : Connection) : String :=
  String.ofList ([','].intercalate (c.layers.map String.toList))

instance : ToString Connection := ⟨toText⟩

def ofLayers? : List String → Option Connection
  | [a, b] => some ⟨a, none, b⟩
  | [a, via, b] => some ⟨a, some via, b⟩
  | _ => none

/-- Reads the text of a connection; an empty layer is a fault whatever the number of layers. -/
def ofText (text : String) : Except ConnectivityFault Connection :=
  let layers := (text.toList.splitOn ',').map fun piece => String.ofList (Text.trim piece)
  if layers.any String.isEmpty then .error (.emptyLayer text)
  else match ofLayers? layers with
    | some c => .ok c
    | none => .error (.layerCount text)

end Connection

namespace LayerSymbol

def toText (s : LayerSymbol) : String := s.symbol ++ "=" ++ s.expression

instance : ToString LayerSymbol := ⟨toText⟩

/-- Reads the text of a symbol, which ends at the first `=`. -/
def ofText (text : String) : Except ConnectivityFault LayerSymbol :=
  match Text.cutAt? '=' text.toList with
  | none => .error (.notAnEquation text)
  | some (before, after) =>
    let symbol := Text.trim before
    if symbol.isEmpty then .error (.noSymbol text)
    else .ok ⟨String.ofList symbol, String.ofList (Text.trim after)⟩

end LayerSymbol

end LayoutTech

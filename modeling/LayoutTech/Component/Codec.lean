import LayoutTech.Component.Basic
import LayoutTech.Fault

/-!
# Codecs

A codec reads a component from its element and writes it back. Codecs are found by tag when reading
and by the component's name when writing; a block without a codec is kept as it is.
-/

namespace LayoutTech

/-- How the components of one tag are read and written. -/
structure Codec where
  decode : Xml.Element → Traced Fault Component
  encode : Component → Except Fault Xml.Element

structure Codecs where
  find? : String → Option Codec

namespace Codec

/-- A child of the connectivity element that is neither a connection nor a symbol. -/
def ignoredPart (tag : String) : Warning :=
  ⟨"Ignoring unknown element in connectivity component", [("element", tag)]⟩

/-- The connections and symbols among the children, each kind in order. -/
def readConnectivity : List Xml.Element → Traced ConnectivityFault (List Connection × List LayerSymbol)
  | [] => pure ([], [])
  | part :: parts =>
    if part.name = "connection" then do
      let connection ← .ofExcept (Connection.ofText part.text)
      let (connections, symbols) ← readConnectivity parts
      pure (connection :: connections, symbols)
    else if part.name = "symbols" then do
      let symbol ← .ofExcept (LayerSymbol.ofText part.text)
      let (connections, symbols) ← readConnectivity parts
      pure (connections, symbol :: symbols)
    else do
      .warn (ignoredPart part.name)
      readConnectivity parts

def connectivityElement (connections : List Connection) (symbols : List LayerSymbol) : Xml.Element :=
  .ofChildren Component.connectivityName
    (connections.map (fun c => .ofText "connection" c.toText) ++
      symbols.map (fun s => .ofText "symbols" s.toText))

/-- Connections and symbols, an element each. -/
def connectivity : Codec where
  decode element := do
    let (connections, symbols) ← (readConnectivity element.children).mapError fun fault =>
      .component (.connectivity fault)
    pure (.connectivity connections symbols)
  encode
    | .connectivity connections symbols => .ok (connectivityElement connections symbols)
    | other => .error (.component (.notConnectivity other.name))

/-- The text of the first `src`, which may be missing. -/
def view25 : Codec where
  decode element := pure (.view25 ((element.child? "src").elim "" Xml.Element.text))
  encode
    | .view25 source => .ok (.ofChildren Component.view25Name [.ofText "src" source])
    | other => .error (.component (.notView25 other.name))

end Codec

namespace Codecs

def empty : Codecs := ⟨fun _ => none⟩

/-- The codecs with one more, which replaces one of the same tag. -/
def register (codecs : Codecs) (tag : String) (codec : Codec) : Codecs :=
  ⟨fun name => if name = tag then some codec else codecs.find? name⟩

/-- The codecs of the two kinds of component that have a meaning here. -/
def builtin : Codecs :=
  (empty.register Component.connectivityName .connectivity).register Component.view25Name .view25

def isRegistered (codecs : Codecs) (tag : String) : Bool := (codecs.find? tag).isSome

def unknownComponent (tag : String) : Warning :=
  ⟨"Unknown technology component, keeping it verbatim", [("component", tag)]⟩

def decode (codecs : Codecs) (block : Xml.Element) : Traced Fault Component :=
  match codecs.find? block.name with
  | some codec => codec.decode block
  | none => do
    .warn (unknownComponent block.name)
    pure (.verbatim block)

def encode (codecs : Codecs) (component : Component) : Except Fault Xml.Element :=
  match component with
  | .verbatim block => .ok block
  | other => match codecs.find? other.name with
    | some codec => codec.encode other
    | none => .error (.component (.noCodec other.name))

end Codecs

end LayoutTech

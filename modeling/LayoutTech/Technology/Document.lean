import LayoutTech.Component.Codec
import LayoutTech.Technology.Basic
import LayoutTech.Xml.Document

/-!
# Technology documents

The element of a technology has a child for each field. Children are read in order, and a later child
of a field takes the place of an earlier one; component blocks add up, and no tag may occur twice
among them.
-/

namespace LayoutTech

inductive Field where
  | name
  | description
  | group
  | dbu
  | grids
  | layerPropertiesFile
  | defaultBasePath
  | explicitBasePath
  | addOtherLayers
  | readerOptions
  | writerOptions
  | components
deriving DecidableEq, Repr

namespace Field

def tag : Field → String
  | .name => "name"
  | .description => "description"
  | .group => "group"
  | .dbu => "dbu"
  | .grids => "default-grids"
  | .layerPropertiesFile => "layer-properties-file"
  | .defaultBasePath => "default-base-path"
  | .explicitBasePath => "explicit-base-path"
  | .addOtherLayers => "add-other-layers"
  | .readerOptions => "reader-options"
  | .writerOptions => "writer-options"
  | .components => "components"

/-- The fields in the order in which they are written. -/
def all : List Field :=
  [.name, .dbu, .description, .group, .grids, .layerPropertiesFile, .defaultBasePath, .explicitBasePath,
    .addOtherLayers, .readerOptions, .writerOptions, .components]

/-- Tags of older documents. -/
def olderTags : List (String × Field) :=
  [("layer-properties_file", .layerPropertiesFile), ("original-base-path", .defaultBasePath),
    ("base-path", .explicitBasePath)]

def ofTag? (tag : String) : Option Field :=
  (all.find? (·.tag == tag)).or (olderTags.lookup tag)

end Field

namespace Technology

/-- A database unit is finite and positive. -/
def isUnit (dbu : Binary64) : Bool := dbu.isFinite && dbu.isPositive

def unitOfText (text : String) : Except DocumentFault Binary64 :=
  match Binary64.ofText? (Text.trim text.toList) with
  | none => .error (.unitNotANumber text)
  | some dbu => if isUnit dbu then .ok dbu else .error (.unitNotPositive text)

def boolOfText (tag text : String) : Except DocumentFault Bool :=
  let word := trimmed text
  if word = "true" ∨ word = "1" then .ok true
  else if word = "false" ∨ word = "0" then .ok false
  else .error (.notABoolean tag word)

/-- The options of one format, added to options. -/
def readFormat (tag format : String) (options : LayoutOptions) :
    List Xml.Element → Except DocumentFault LayoutOptions
  | [] => .ok options
  | option :: rest =>
    if option.children.isEmpty then
      readFormat tag format (options.set format option.name option.text) rest
    else .error (.optionNotText tag option.name format)

/-- The options of an element: a child for each format, with a child for each option. -/
def readOptions (element : Xml.Element) : Except DocumentFault LayoutOptions :=
  element.children.foldlM (fun options block => readFormat element.name block.name options block.children)
    .empty

/-- A name that can be a tag for a format or an option: a letter or `_`, then letters, digits, `_`, `-`
and `.`, all of ASCII. -/
def isTagName (s : String) : Bool :=
  match s.toList with
  | [] => false
  | c :: cs =>
    (c.isAlpha || c == '_') && cs.all fun c => c.isAlphanum || c == '_' || c == '-' || c == '.'

def writeFormat (tag : String) (format : String × Table String) : Except DocumentFault Xml.Element :=
  if !isTagName format.1 then .error (.badFormatName tag format.1)
  else match format.2.keys.find? (!isTagName ·) with
    | some key => .error (.badOptionName tag key)
    | none => .ok (.ofChildren format.1 (format.2.entries.map fun (key, value) => .ofText key value))

def writeOptions (tag : String) (options : LayoutOptions) : Except DocumentFault Xml.Element := do
  let formats ← options.formats.entries.mapM (writeFormat tag)
  pure (.ofChildren tag formats)

/-- A technology that is being read, and whether its name has been seen. -/
structure Draft where
  technology : Technology := {}
  isNamed : Bool := false

namespace Draft

/-- A fault of a component is one of the document that holds it. -/
def blockFault (tag : String) : LayoutTech.Fault → LayoutTech.Fault
  | .component fault => .malformed (.component tag fault)
  | other => other

/-- Adds the component of a block; there must be none yet under the block's tag. -/
def addBlock (codecs : Codecs) (draft : Draft) (block : Xml.Element) : Traced LayoutTech.Fault Draft :=
  if draft.technology.components.contains block.name then
    .fail (.malformed (.componentTwice block.name draft.technology.name))
  else do
    let component ← (codecs.decode block).mapError (blockFault block.name)
    pure { draft with technology := draft.technology.setComponent component }

/-- A child that belongs to no field and has no codec. -/
def ignoredChild (tag : String) : Warning :=
  ⟨"Ignoring unknown element in technology", [("element", tag)]⟩

def update (draft : Draft) (change : Technology → Technology) : Draft :=
  { draft with technology := change draft.technology }

def readField (codecs : Codecs) (draft : Draft) (field : Field) (child : Xml.Element) :
    Traced LayoutTech.Fault Draft :=
  let malformed {α : Type} (x : Except DocumentFault α) : Traced LayoutTech.Fault α :=
    .ofExcept (x.mapError .malformed)
  match field with
  | .name => pure { draft.update ({ · with name := child.text }) with isNamed := true }
  | .description => pure (draft.update ({ · with description := child.text }))
  | .group => pure (draft.update ({ · with group := child.text }))
  | .dbu => do
    let dbu ← malformed (unitOfText child.text)
    pure (draft.update ({ · with dbu }))
  | .grids => do
    let grids ← (Grids.ofText child.text.toList).mapError fun fault => .malformed (.grids fault)
    pure (draft.update ({ · with grids }))
  | .layerPropertiesFile => pure (draft.update ({ · with layerPropertiesFile := child.text }))
  | .defaultBasePath => pure (draft.update ({ · with defaultBasePath := child.text }))
  | .explicitBasePath => pure (draft.update ({ · with explicitBasePath := child.text }))
  | .addOtherLayers => do
    let addOtherLayers ← malformed (boolOfText Field.addOtherLayers.tag child.text)
    pure (draft.update ({ · with addOtherLayers }))
  | .readerOptions => do
    let readerOptions ← malformed (readOptions child)
    pure (draft.update ({ · with readerOptions }))
  | .writerOptions => do
    let writerOptions ← malformed (readOptions child)
    pure (draft.update ({ · with writerOptions }))
  | .components => child.children.foldlM (addBlock codecs) draft

/-- Reads a child: a field, or a component block outside the element for components. -/
def readChild (codecs : Codecs) (draft : Draft) (child : Xml.Element) : Traced LayoutTech.Fault Draft :=
  match Field.ofTag? child.name with
  | some field => readField codecs draft field child
  | none =>
    if codecs.isRegistered child.name then addBlock codecs draft child
    else do
      .warn (ignoredChild child.name)
      pure draft

end Draft

/-- The technology of an element, whatever the element's name. -/
def ofElement (codecs : Codecs) (element : Xml.Element) : Traced LayoutTech.Fault Technology := do
  let draft ← element.children.foldlM (Draft.readChild codecs) {}
  if draft.isNamed then pure draft.technology else .fail (.malformed .nameMissing)

def rootTag : String := "technology"

def listTag : String := "technologies"

/-- The root element of a document, which has to have the tag. -/
def rootOf (tag document : String) : Except DocumentFault Xml.Element :=
  match Xml.Element.parse document with
  | .error fault => .error (.xml fault)
  | .ok root => if root.name = tag then .ok root else .error (.wrongRoot tag root.name)

def parse (codecs : Codecs) (document : String) : Traced LayoutTech.Fault Technology := do
  let root ← .ofExcept ((rootOf rootTag document).mapError .malformed)
  ofElement codecs root

def toElement (codecs : Codecs) (t : Technology) : Except LayoutTech.Fault Xml.Element := do
  if !isUnit t.dbu then throw (.malformed (.unitNotWritable t.dbu t.name))
  let readerOptions ← (writeOptions Field.readerOptions.tag t.readerOptions).mapError .malformed
  let writerOptions ← (writeOptions Field.writerOptions.tag t.writerOptions).mapError .malformed
  let blocks ← t.components.values.mapM codecs.encode
  pure (.ofChildren rootTag
    [.ofText Field.name.tag t.name,
      .ofText Field.dbu.tag (toString t.dbu),
      .ofText Field.description.tag t.description,
      .ofText Field.group.tag t.group,
      .ofText Field.grids.tag (toString t.grids),
      .ofText Field.layerPropertiesFile.tag t.layerPropertiesFile,
      .ofText Field.defaultBasePath.tag t.defaultBasePath,
      .ofText Field.explicitBasePath.tag t.explicitBasePath,
      .ofText Field.addOtherLayers.tag (if t.addOtherLayers then "true" else "false"),
      readerOptions,
      writerOptions,
      .ofChildren Field.components.tag blocks])

def write (codecs : Codecs) (style : Xml.Style) (t : Technology) : Except LayoutTech.Fault String := do
  let element ← t.toElement codecs
  pure (element.toDocument style)

def ignoredEntry (tag : String) : Warning :=
  ⟨"Ignoring unknown element in technologies document", [("element", tag)]⟩

/-- The outcome of each technology among the elements; a bad one does not affect the others. -/
def ofElements (codecs : Codecs) :
    List Xml.Element → Traced LayoutTech.Fault (List (Except LayoutTech.Fault Technology))
  | [] => pure []
  | child :: rest =>
    if child.name = rootTag then do
      let outcome ← (ofElement codecs child).attempt
      let outcomes ← ofElements codecs rest
      pure (outcome :: outcomes)
    else do
      .warn (ignoredEntry child.name)
      ofElements codecs rest

def parseAll (codecs : Codecs) (document : String) :
    Traced LayoutTech.Fault (List (Except LayoutTech.Fault Technology)) := do
  let root ← .ofExcept ((rootOf listTag document).mapError .malformed)
  ofElements codecs root.children

def writeAll (codecs : Codecs) (style : Xml.Style) (ts : List Technology) :
    Except LayoutTech.Fault String := do
  let elements ← ts.mapM (toElement codecs)
  pure ((Xml.Element.ofChildren listTag elements).toDocument style)

end Technology

end LayoutTech

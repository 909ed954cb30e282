import LayoutTech.Component.Basic
import LayoutTech.Grids
import LayoutTech.LayoutOptions
import LayoutTech.Path

/-!
# Technologies

The record of a layout technology. Where a record came from and what may be done with it is no part
of what it is: two records are the same when all the other fields are.
-/

namespace LayoutTech

structure Technology where
  name : String := ""
  description : String := ""
  group : String := ""
  dbu : Binary64 := Decimal.toBinary false ⟨1, -3⟩
  grids : Grids := .empty
  layerPropertiesFile : String := ""
  defaultBasePath : String := ""
  explicitBasePath : String := ""
  addOtherLayers : Bool := true
  readerOptions : LayoutOptions := .empty
  writerOptions : LayoutOptions := .empty
  components : Table Component := .empty
  filePath : String := ""
  isReadonly : Bool := false
  isPersisted : Bool := true

namespace Technology

instance : Inhabited Technology := ⟨{}⟩

/-- Equality of everything but the file path and the two flags. -/
def same (t u : Technology) : Bool :=
  t.name == u.name && t.description == u.description && t.group == u.group &&
    t.dbu.sameValue u.dbu && t.grids.same u.grids && t.layerPropertiesFile == u.layerPropertiesFile &&
    t.defaultBasePath == u.defaultBasePath && t.explicitBasePath == u.explicitBasePath &&
    t.addOtherLayers == u.addOtherLayers && decide (t.readerOptions = u.readerOptions) &&
    decide (t.writerOptions = u.writerOptions) && decide (t.components = u.components)

/-- The explicit base path if there is one, and the default one otherwise. -/
def basePath (t : Technology) : String :=
  if t.explicitBasePath.isEmpty then t.defaultBasePath else t.explicitBasePath

/-- The path relative to the base path, where it lies below it. -/
def correctPath (t : Technology) (path : String) : String :=
  String.ofList (Path.correct t.basePath.toList path.toList)

def effectivePath (t : Technology) (path : String) : String :=
  String.ofList (Path.effective t.basePath.toList path.toList)

def effectiveLayerPropertiesFile (t : Technology) : String := t.effectivePath t.layerPropertiesFile

def component? (t : Technology) (name : String) : Option Component := t.components.get? name

/-- The technology with the component under its name, in place of one of the same name. -/
def setComponent (t : Technology) (component : Component) : Technology :=
  { t with components := t.components.insert component.name component }

def removeComponent (t : Technology) (name : String) : Technology :=
  { t with components := t.components.erase name }

/-- The technology with a component changed in place. It stays under the name it was kept under, whatever becomes of
its own. -/
def editComponent (t : Technology) (name : String) (edit : Component.Edit) : Technology :=
  { t with components := t.components.modify name (Component.edit edit) }

end Technology

end LayoutTech

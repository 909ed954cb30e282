import LayoutTech.Manifest.Basic
import LayoutTech.Yaml.Outline
import LayoutTech.Yaml.Shape

/-!
# Manifests as YAML

A manifest is read from a YAML document field by field; fields that it does not know are passed over. It is
written with every field that has a value.
-/

namespace LayoutTech.Manifest

open Yaml (Cursor Shaped)

/-! ## Reading -/

def readLogging (p : Cursor) : Shaped Logging := do
  let (level, format) ← p.record "LoggingConfig" ((none, none) : Option String × Option String)
    fun (level, format) name field =>
      match name with
      | "level" => (Cursor.once name level field.text).map fun level => (level, format)
      | "format" => (Cursor.once name format field.text).map fun format => (level, format)
      | _ => .ok (level, format)
  let standard : Logging := {}
  pure { level := level.getD standard.level, format := format.getD standard.format }

def readObservability (p : Cursor) : Shaped Observability := do
  let logging ← p.record "ObservabilityConfig" (none : Option (Option Logging)) fun logging name field =>
    match name with
    | "logging" => Cursor.once name logging (field.optional readLogging)
    | _ => .ok logging
  pure ⟨logging.join⟩

def readPolicy (p : Cursor) : Shaped CollisionPolicy :=
  let policies := [CollisionPolicy.reject, .replace]
  (p.word (policies.map CollisionPolicy.word)).map fun word =>
    (policies.find? (·.word = word)).getD .reject

def readImport (p : Cursor) : Shaped CollisionPolicy := do
  let policy ← p.record "ImportConfig" (none : Option CollisionPolicy) fun policy name field =>
    match name with
    | "collision_policy" => Cursor.once name policy (readPolicy field)
    | _ => .ok policy
  pure (policy.getD .reject)

/-- What a manifest says about the registry, as far as it has been read. -/
structure Body where
  technologyPaths : Option (List String) := none
  collisionPolicy : Option CollisionPolicy := none
  observability : Option (Option Observability) := none

def readBody (p : Cursor) : Shaped Body :=
  p.record "RegistryConfigSpec" ({} : Body) fun body name field =>
    match name with
    | "technology_paths" => do
      let technologyPaths ←
        Cursor.once name body.technologyPaths (field.items fun path => path.text "path string")
      pure { body with technologyPaths }
    | "import" => do
      let collisionPolicy ← Cursor.once name body.collisionPolicy (readImport field)
      pure { body with collisionPolicy }
    | "observability" => do
      let observability ← Cursor.once name body.observability (field.optional readObservability)
      pure { body with observability }
    | _ => .ok body

def readLabels (p : Cursor) : Shaped (Table String) :=
  p.foldFields "a map" "a string" Table.empty fun labels name field =>
    field.text.map (labels.insert name)

structure Metadata where
  name : String
  version : Option String
  labels : Option (Table String)

structure MetadataDraft where
  name : Option String := none
  version : Option (Option String) := none
  labels : Option (Option (Table String)) := none

def readMetadata (p : Cursor) : Shaped Metadata := do
  let draft ← p.record "ManifestMetadata" ({} : MetadataDraft) fun draft name field =>
    match name with
    | "name" => (Cursor.once name draft.name field.text).map fun name => { draft with name }
    | "version" => do
      let version ← Cursor.once name draft.version (field.optional Cursor.text)
      pure { draft with version }
    | "labels" => do
      let labels ← Cursor.once name draft.labels (field.optional readLabels)
      pure { draft with labels }
    | _ => .ok draft
  let name ← p.required "name" draft.name
  pure ⟨name, draft.version.join, draft.labels.join⟩

structure Draft where
  apiVersion : Option String := none
  kind : Option String := none
  metadata : Option Metadata := none
  body : Option Body := none

def read (p : Cursor) : Shaped Manifest := do
  let draft ← p.record "RegistryConfigManifest" ({} : Draft) fun draft name field =>
    match name with
    | "apiVersion" => do
      let apiVersion ← Cursor.once name draft.apiVersion field.text
      pure { draft with apiVersion }
    | "kind" => (Cursor.once name draft.kind field.text).map fun kind => { draft with kind }
    | "metadata" => do
      let metadata ← Cursor.once name draft.metadata (readMetadata field)
      pure { draft with metadata }
    | "spec" => (Cursor.once name draft.body (readBody field)).map fun body => { draft with body }
    | _ => .ok draft
  let apiVersion ← p.required "apiVersion" draft.apiVersion
  let kind ← p.required "kind" draft.kind
  let metadata ← p.required "metadata" draft.metadata
  let body := draft.body.getD {}
  pure {
    apiVersion, kind
    name := metadata.name
    version := metadata.version
    labels := metadata.labels
    technologyPaths := body.technologyPaths.getD []
    collisionPolicy := body.collisionPolicy.getD .reject
    observability := body.observability.join }

/-- Why a text is no manifest: it is no YAML document, or has nodes in it that mean nothing, or is a document
of another shape. -/
inductive TextFault where
  | malformed (fault : Yaml.SyntaxFault)
  | meaningless (fault : Yaml.ShapeFault)
  | misshapen (fault : Yaml.ShapeFault)
deriving DecidableEq, Repr

def TextFault.message : TextFault → String
  | .malformed fault => fault.message
  | .meaningless fault => fault.fullMessage
  | .misshapen fault => fault.fullMessage

def ofText (text : String) : Except TextFault Manifest := do
  let document ← (Yaml.Document.ofText text.toList).mapError .malformed
  (read document.top).mapError fun fault =>
    if (Yaml.Value.ofDocument? document).isSome then .misshapen fault else .meaningless fault

/-! ## Writing -/

open Yaml (Outline)

def fieldOf {α : Type} (name : String) (outline : α → Outline) (value : Option α) : List (String × Outline) :=
  (value.map fun v => (name, outline v)).toList

def Logging.outline (l : Logging) : Outline := .mapping [("level", .text l.level), ("format", .text l.format)]

def Observability.outline (o : Observability) : Outline :=
  .mapping (fieldOf "logging" Logging.outline o.logging)

def fields (m : Manifest) : List (String × Outline) :=
  [("apiVersion", .text m.apiVersion),
    ("kind", .text m.kind),
    ("metadata", .mapping ([("name", .text m.name)] ++ fieldOf "version" .text m.version ++
      fieldOf "labels" (fun labels => .mapping (labels.entries.map fun (k, v) => (k, .text v))) m.labels)),
    ("spec", .mapping ([("technology_paths", .texts m.technologyPaths),
      ("import", .mapping [("collision_policy", .text m.collisionPolicy.word)])] ++
      fieldOf "observability" Observability.outline m.observability))]

def toText (m : Manifest) : String := Outline.document m.fields

end LayoutTech.Manifest

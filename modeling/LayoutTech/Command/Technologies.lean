import LayoutTech.Command.Arguments
import LayoutTech.Command.Console
import LayoutTech.Registry.Shared

/-!
# Commands for technologies

Each command but `validate` loads the technologies of the configured directories first, and tells of those
that it could not take in.
-/

namespace LayoutTech.Command

/-- What is behind a fault of a technology, the fault itself first. -/
def faultChain (fault : Fault) : List String :=
  match fault with
  | .file _ cause => [fault.message, cause.message]
  | _ => [fault.message]

def failureOf (fault : Fault) : Failure := ⟨fault.message, (faultChain fault).drop 1⟩

def padded (width : Nat) (text : String) : String :=
  text ++ String.ofList (List.replicate (width - text.length) ' ')

namespace Technologies

open LayoutTech.Command.Action

def tellRejected (report : Report) : Action Unit :=
  report.rejected.forM fun r => tell s!"⚠ Skipped {r.source}: {r.fault.message}"

def openRegistry (m : Manifest) : Action Registry := do
  let loaded := (Registry.ofManifest m).loadPaths (← tree) (m.technologyPaths.map String.toList)
  let (registry, report) ← orFail loaded.result failureOf
  tellRejected report
  pure registry

def row (name group dbu description : String) : String :=
  padded 24 name ++ " " ++ padded 16 group ++ " " ++ padded 10 dbu ++ " " ++ description

def list (m : Manifest) : Action Unit := do
  let technologies := (← openRegistry m).snapshot
  if technologies.isEmpty then writeLine "No technologies found"
  else
    writeLine s!"{technologies.length} technologies found:"
    writeLine (row "NAME" "GROUP" "DBU" "DESCRIPTION")
    technologies.forM fun t => writeLine (row t.name t.group (toString t.dbu) t.description)

def describe (t : Technology) : Action Unit := do
  writeLine t.name
  writeLine s!"  Description: {t.description}"
  writeLine s!"  Group: {t.group}"
  writeLine s!"  DBU: {t.dbu}"
  writeLine s!"  Default grids: {t.grids}"
  writeLine s!"  Base path: {t.basePath}"
  if !t.layerPropertiesFile.isEmpty then
    writeLine s!"  Layer properties: {t.effectiveLayerPropertiesFile}"
  writeLine s!"  Add other layers: {t.addOtherLayers}"
  if !t.filePath.isEmpty then writeLine s!"  Loaded from: {t.filePath}"
  if !t.components.isEmpty then
    writeLine "  Components:"
    t.components.values.forM fun c => writeLine s!"    - {c.name} ({c.description})"

def print (m : Manifest) (name : String) (asXml : Bool) : Action Unit := do
  let registry ← openRegistry m
  match registry.lookup name with
  | none => throw ⟨s!"Technology not found: {name}", []⟩
  | some handle =>
    let t := registry.repository.record handle
    if asXml then write (← orFail (t.write registry.codecs .pretty) failureOf) else describe t

def exportAll (m : Manifest) (output : Option String) : Action Unit := do
  let registry ← openRegistry m
  let document ← orFail registry.exportAll failureOf
  match output with
  | some path =>
    writeFile path document ("Failed to write " ++ Text.quotedPath path)
    writeLine s!"✓ Exported {registry.size} technologies to {path}"
  | none => writeLine document

def validate (file : String) : Action Unit := do
  writeLine s!"Validating technology file {file}..."
  let t ← orFail (Technology.loadFile .builtin (← tree) file.toList).result fun fault =>
    ⟨"Technology file " ++ Text.quotedPath file ++ " is invalid", faultChain fault⟩
  writeLine s!"✓ Technology '{t.name}' is valid"

/-- Takes the technologies of a document into the registry, and writes that to a file if asked to. -/
def importFrom (m : Manifest) (file : String) (output : Option String) : Action Unit := do
  let registry ← openRegistry m
  let shown := Text.quotedPath file
  let document ← orFail ((← tree).readText file.toList) fun fault => ⟨"Failed to read " ++ shown, [fault.message]⟩
  let (registry, report) ← orFail (registry.importAll document).result fun fault =>
    ⟨"Failed to import " ++ shown, faultChain fault⟩
  report.imported.forM fun name => writeLine s!"✓ Imported {name}"
  report.replaced.forM fun name => writeLine s!"✓ Replaced {name}"
  tellRejected report
  writeLine (s!"{report.imported.length} imported, {report.replaced.length} replaced, " ++
    s!"{report.rejected.length} rejected")
  match output with
  | some path => do
    let document ← orFail registry.exportAll failureOf
    writeFile path document ("Failed to write " ++ Text.quotedPath path)
    writeLine s!"Registry written to {path}"
  | none => pure ()

def run (m : Manifest) : TechnologyTask → Action Unit
  | .list => list m
  | .print name asXml => print m name asXml
  | .exportAll output => exportAll m output
  | .validate file => validate file
  | .importFrom file output => importFrom m file output

end Technologies

end LayoutTech.Command
